import Readback.Text.Digits
/-!
# Quoted text

A text between double quotes, in the escaping that JSON prescribes: a quote and a backslash are escaped, the control
characters below U+0020 have a letter where there is one and four hexadecimal digits where there is none, and every
other character stands for itself.
-/
namespace Readback.Text.Quoted

/-- How one character is written between the quotes. -/
def spell (c : Char) : List Char :=
  if c = '"' then ['\\', '"']
  else if c = '\\' then ['\\', '\\']
  else if c = '\x08' then ['\\', 'b']
  else if c = '\x0c' then ['\\', 'f']
  else if c = '\n' then ['\\', 'n']
  else if c = '\r' then ['\\', 'r']
  else if c = '\t' then ['\\', 't']
  else if c.toNat < 0x20 then ['\\', 'u', '0', '0', hexDigit (c.toNat / 16), hexDigit (c.toNat % 16)]
  else [c]

def encode (cs : List Char) : List Char := '"' :: (cs.flatMap spell ++ ['"'])

end Readback.Text.Quoted

namespace Readback.Text

/-- The text as a string literal. -/
def quote (s : String) : String := String.ofList (Quoted.encode s.toList)

end Readback.Text
