import Readback.Text.Blank
import Readback.Token.Basic
/-!
# String tokens

A string stands between two quotes of one sort, on one line.  A backslash starts an escape: a letter for a control
character, the code of a character in octal or hexadecimal digits, or a line end, which the string then does not have;
any other character after a backslash stands for itself.
-/
namespace Readback.Token

/-! ## Codes -/

def octalValue? (c : Char) : Option Nat := if '0' ≤ c ∧ c ≤ '7' then some (c.toNat - 48) else none

def isOctal (c : Char) : Bool := (octalValue? c).isSome

def hexValue? (c : Char) : Option Nat :=
  if '0' ≤ c ∧ c ≤ '9' then some (c.toNat - 48)
  else if 'a' ≤ c ∧ c ≤ 'f' then some (c.toNat - 87)
  else if 'A' ≤ c ∧ c ≤ 'F' then some (c.toNat - 55)
  else none

def isHex (c : Char) : Bool := (hexValue? c).isSome

/-- The number that digits spell, each with its value. -/
def codeOf (base : Nat) (value? : Char → Option Nat) (cs : List Char) : Nat :=
  cs.foldl (fun n c => n * base + (value? c).getD 0) 0

/-- The character of a code, when there is one. -/
def charOf? (code : Nat) : Option Char := if h : code.isValidChar then some (Char.ofNatAux code h) else none

/-- The character of a code that an escape spelled in so many characters. -/
def coded (size code : Nat) : Scan (Option Char) :=
  match charOf? code with
  | some c => ⟨size, .ok (some c)⟩
  | none   => ⟨size, .error .badEscape⟩

/-! ## Escapes -/

/-- The digits of a legacy octal escape: up to three, and at most `377`. -/
def octalDigits : List Char → List Char
  | []      => []
  | c :: cs => c :: (cs.take (if c ≤ '3' then 2 else 1)).takeWhile isOctal

/-- Exactly `n` hexadecimal digits. -/
def hexEscape (n : Nat) (cs : List Char) : Scan (Option Char) :=
  let ds := (cs.take n).takeWhile isHex
  if ds.length = n then coded n (codeOf 16 hexValue? ds) else ⟨ds.length, .error .badEscape⟩

/-- Four hexadecimal digits, or any number of them between braces. -/
def unicodeEscape : List Char → Scan (Option Char)
  | '\x7b' :: cs =>
    let ds := cs.takeWhile isHex
    if ds ≠ [] ∧ (cs.drop ds.length).head? = some '\x7d' then coded (ds.length + 2) (codeOf 16 hexValue? ds)
    else ⟨ds.length + 1, .error .badEscape⟩
  | cs => hexEscape 4 cs

/-- The scan with `n` characters more in front. -/
def Scan.after {α : Type} (n : Nat) (s : Scan α) : Scan α := ⟨n + s.size, s.outcome⟩

/-- What follows a backslash: the character it stands for, or nothing for a line end. -/
def escape : List Char → Scan (Option Char)
  | []      => ⟨0, .error .openString⟩
  | c :: cs =>
    if c = 'n' then ⟨1, .ok (some '\n')⟩
    else if c = 'r' then ⟨1, .ok (some '\r')⟩
    else if c = 't' then ⟨1, .ok (some '\t')⟩
    else if c = 'b' then ⟨1, .ok (some '\x08')⟩
    else if c = 'f' then ⟨1, .ok (some '\x0c')⟩
    else if c = 'v' then ⟨1, .ok (some '\x0b')⟩
    else if isOctal c then
      let ds := octalDigits (c :: cs)
      coded ds.length (codeOf 8 octalValue? ds)
    else if c = 'x' then (hexEscape 2 cs).after 1
    else if c = 'u' then (unicodeEscape cs).after 1
    else if c = '\r' then ⟨if cs.head? = some '\n' then 2 else 1, .ok none⟩
    else if c = '\n' ∨ c = '\u2028' ∨ c = '\u2029' then ⟨1, .ok none⟩
    else ⟨1, .ok (some c)⟩

/-! ## Bodies -/

/-- What follows the opening quote, to the closing one: the text that the string spells. -/
def stringBody (quote : Char) : List Char → Scan (List Char)
  | []      => ⟨0, .error .openString⟩
  | c :: cs =>
    if c = quote then ⟨1, .ok []⟩
    else if c = '\n' ∨ c = '\r' then ⟨1, .error .openString⟩
    else if c = '\\' then
      let e := escape cs
      match e.outcome with
      | .error fault => ⟨e.size + 1, .error fault⟩
      | .ok spelled  =>
        let body := stringBody quote (cs.drop e.size)
        ⟨body.size + (e.size + 1), body.outcome.map (spelled.toList ++ ·)⟩
    else
      let body := stringBody quote cs
      ⟨body.size + 1, body.outcome.map (c :: ·)⟩
termination_by cs => cs.length
decreasing_by all_goals (simp only [List.length_drop, List.length_cons]; omega)

end Readback.Token
