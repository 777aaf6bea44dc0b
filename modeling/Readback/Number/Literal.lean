import Readback.Number.Decimal
/-!
# Number literals

The text of a numeric token, as the number it denotes.  Underscores may stand anywhere and mean nothing.  After `0x`,
`0o` or `0b` come digits of that radix, added up one digit at a time with the sum rounded at each step; any other
literal is a decimal, rounded once.  A text that is neither has no value.
-/
namespace Readback.Number.Literal

open Text (isDigit valueOf)

/-- The value of a digit in a radix of at most thirty-six. -/
def digitValue? (radix : Nat) (c : Char) : Option Nat :=
  let v := if isDigit c then some (c.toNat - 48)
    else if 'a' ≤ c ∧ c ≤ 'z' then some (c.toNat - 87)
    else if 'A' ≤ c ∧ c ≤ 'Z' then some (c.toNat - 55)
    else none
  v.filter (· < radix)

/-! ## Decimals -/

/-- The power of ten after the digits: nothing, or `e`, a sign and at least one digit. -/
def exponent? : List Char → Option Int
  | []            => some 0
  | 'e' :: cs     => signedDigits? cs
  | 'E' :: cs     => signedDigits? cs
  | _             => none
where
  signedDigits? : List Char → Option Int
    | '-' :: cs => (digits? cs).map (fun n => -(n : Int))
    | '+' :: cs => (digits? cs).map (fun n => (n : Int))
    | cs        => (digits? cs).map (fun n => (n : Int))
  digits? (cs : List Char) : Option Nat :=
    if cs ≠ [] ∧ cs.all isDigit then some (valueOf cs) else none

/-- The digits after the point, if there is one, and what follows them. -/
def fraction : List Char → List Char × List Char
  | '.' :: cs => (cs.takeWhile isDigit, cs.dropWhile isDigit)
  | cs        => ([], cs)

def decimal? (cs : List Char) : Option Decimal :=
  let whole := cs.takeWhile isDigit
  let (part, rest) := fraction (cs.dropWhile isDigit)
  if whole ++ part = [] then none
  else (exponent? rest).map (fun e => ⟨valueOf (whole ++ part), e - part.length⟩)

/-! ## Radix literals -/

/-- The radix that the first two characters announce. -/
def radix? : List Char → Option (Nat × List Char)
  | '0' :: c :: cs =>
    if c = 'x' ∨ c = 'X' then some (16, cs)
    else if c = 'o' ∨ c = 'O' then some (8, cs)
    else if c = 'b' ∨ c = 'B' then some (2, cs)
    else none
  | _ => none

/-- The sum so far, moved up by the radix, and one more digit: rounded to the nearest number. -/
def addDigit (radix : Nat) (sum : Number) (digit : Nat) : Number :=
  match sum with
  | .finite s x => .ofFraction s (x.units * radix + digit * Magnitude.one) Magnitude.one
  | sum         => sum

def radixDigits? (radix : Nat) (cs : List Char) : Option Number :=
  if cs = [] then none
  else (cs.mapM (digitValue? radix)).map (fun ds => ds.foldl (addDigit radix) .zero)

/-- The number that the text of a numeric token denotes. -/
def read? (text : List Char) : Option Number :=
  let cs := text.filter (· != '_')
  match radix? cs with
  | some (radix, digits) => radixDigits? radix digits
  | none                 => (decimal? cs).map (fun d => .ofSize false d.round?)

end Readback.Number.Literal
