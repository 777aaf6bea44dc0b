/-!
# Blank characters, line ends, and trimming

`isBlank` is the Unicode property White_Space; `endsLine` holds of the four characters that end a line of a snippet.
A text is trimmed of blanks on either side.
-/
namespace Readback.Text

/-- The Unicode property White_Space: 25 characters. -/
def isBlank (c : Char) : Bool :=
  let n := c.toNat
  (9 ≤ n && n ≤ 13) || n == 0x20 || n == 0x85 || n == 0xA0 || n == 0x1680 || (0x2000 ≤ n && n ≤ 0x200A) ||
    n == 0x2028 || n == 0x2029 || n == 0x202F || n == 0x205F || n == 0x3000

/-- Line feed, carriage return, and the line and paragraph separators. -/
def endsLine (c : Char) : Bool := c == '\n' || c == '\r' || c == '\u2028' || c == '\u2029'

def trimStart (cs : List Char) : List Char := cs.dropWhile isBlank

def trimEnd (cs : List Char) : List Char := (cs.reverse.dropWhile isBlank).reverse

def trim (cs : List Char) : List Char := trimEnd (trimStart cs)

/-- What ends a line is blank. -/
theorem isBlank_of_endsLine {c : Char} (h : endsLine c = true) : isBlank c = true := by
  simp only [endsLine, Bool.or_eq_true, beq_iff_eq] at h
  rcases h with ((rfl | rfl) | rfl) | rfl <;> decide

end Readback.Text
