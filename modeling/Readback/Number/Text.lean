import Readback.Number.Shortest
/-!
# Number text

A number is written with the fewest digits that read back.  With the point after at most twenty-one digits, or after at
most five zeros behind the leading one, they are written in place; otherwise with an exponent, whose sign is always
written.  `source` keeps the sign of negative zero, so that the text reads back as the same number; `text` drops it.
`plain` writes every digit in place and is for people.
-/
namespace Readback.Number

open Text (digits zeros)

/-- A point after the first `n` digits, or zeros in front when it stands to their left, or behind when it stands to
their right. -/
def positional (ds : List Char) (point : Int) : List Char :=
  if point ≤ 0 then '0' :: '.' :: (zeros (-point).toNat ++ ds)
  else if ds.length ≤ point.toNat then ds ++ zeros (point.toNat - ds.length)
  else ds.take point.toNat ++ '.' :: ds.drop point.toNat

/-- One digit before the point, and a power of ten. -/
def scientific (ds : List Char) (point : Int) : List Char :=
  let power := point - 1
  let tail := 'e' :: (if power < 0 then '-' else '+') :: digits power.natAbs
  match ds with
  | []      => tail
  | [d]     => d :: tail
  | d :: ds => d :: '.' :: (ds ++ tail)

def layout (d : Decimal) : List Char :=
  if -6 < d.point ∧ d.point ≤ 21 then positional (digits d.digits) d.point
  else scientific (digits d.digits) d.point

def sizeText (x : Magnitude) : List Char := if x = .zero then ['0'] else layout x.shortest

def signed (negative : Bool) (text : List Char) : List Char := if negative then '-' :: text else text

def sourceChars : Number → List Char
  | .nan        => "NaN".toList
  | .infinite s => signed s "Infinity".toList
  | .finite s x => signed s (sizeText x)

/-- The text of a number as source: it reads back as the same number. -/
def source (x : Number) : String := String.ofList x.sourceChars

/-- The text of a number as a value: like the source, but negative zero is `0`. -/
def text : Number → String
  | .finite s x => if x = .zero then "0" else source (.finite s x)
  | x           => source x

/-- Every digit in place, without an exponent. -/
def plain : Number → String
  | .nan        => "NaN"
  | .infinite s => String.ofList (signed s "inf".toList)
  | .finite s x => String.ofList (signed s (if x = .zero then ['0'] else
      positional (digits x.shortest.digits) x.shortest.point))

end Readback.Number
