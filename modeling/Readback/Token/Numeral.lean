import Readback.Text.Digits
import Readback.Token.Name
/-!
# Numeric tokens

After `0x`, `0o` or `0b` a numeric token takes every letter, digit and underscore; any other takes digits, underscores,
one point and one exponent.  Which number that denotes, if any, is not asked here; but no name may follow at once.
-/
namespace Readback.Token

open Text (isDigit)

def isRadixLetter (c : Char) : Bool := c == 'x' || c == 'X' || c == 'o' || c == 'O' || c == 'b' || c == 'B'

/-- What may follow the letter of a radix: any ASCII letter or digit, and the underscore. -/
def continuesRadix (c : Char) : Bool :=
  isDigit c || ('a' ≤ c && c ≤ 'z') || ('A' ≤ c && c ≤ 'Z') || c == '_'

def isExponentLetter (c : Char) : Bool := c == 'e' || c == 'E'

/-- How many characters a decimal takes, once it has had its point or its exponent. -/
def decimalSize (point exponent : Bool) : List Char → Nat
  | []      => 0
  | c :: cs =>
    if isDigit c || c == '_' then 1 + decimalSize point exponent cs
    else if c == '.' && !point && !exponent then 1 + decimalSize true exponent cs
    else if isExponentLetter c && !exponent then
      match cs with
      | '+' :: cs => 2 + decimalSize point true cs
      | '-' :: cs => 2 + decimalSize point true cs
      | cs        => 1 + decimalSize point true cs
    else 0

def numeralSize : List Char → Nat
  | '0' :: c :: cs =>
    if isRadixLetter c then 2 + (cs.takeWhile continuesRadix).length else decimalSize false false ('0' :: c :: cs)
  | cs => decimalSize false false cs

def numeral (cs : List Char) : Scan Unit :=
  let n := numeralSize cs
  ⟨n, if (cs.drop n).head?.any startsName then .error .nameAfterNumber else .ok ()⟩

end Readback.Token
