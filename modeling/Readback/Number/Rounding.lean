import Readback.Number.Basic
/-!
# Rounding to the nearest magnitude

`Magnitude.round? num den` is the magnitude nearest to the fraction `num / den`, a half going to the even mantissa, and
`none` when that lies beyond the largest magnitude.  The fraction is counted in units of 2^-1074; the scale is what
brings the whole part of that count below 2^53.
-/
namespace Readback

-- Powers of natural numbers are those that come with the numbers, whatever other instances are there.
attribute [local instance (2000)] instPowNat

namespace Magnitude

/-- The quotient nearest to `num / den`; a half goes to the even one. -/
def divideEven (num den : Nat) : Nat :=
  let q := num / den
  let r := num % den
  if 2 * r < den then q else if 2 * r = den ∧ q % 2 = 0 then q else q + 1

/-- How far a count of units has to be shifted for fifty-three bits to hold it. -/
def scaleOf (count : Nat) : Nat := if count < 2 ^ (53 : Nat) then 0 else count.log2 - 52

/-- A mantissa at a scale, when both are in range: a mantissa that was rounded up to 2^53 moves one scale up. -/
def ofParts? (m scale : Nat) : Option Magnitude :=
  if h : m < 2 ^ (53 : Nat) ∧ scale ≤ maxScale ∧ (scale ≠ 0 → 2 ^ (52 : Nat) ≤ m) then some ⟨m, scale, h.1, h.2.1, h.2.2⟩
  else if h : m = 2 ^ (53 : Nat) ∧ scale + 1 ≤ maxScale then some ⟨2 ^ (52 : Nat), scale + 1, by decide, h.2, fun _ => Nat.le_refl _⟩
  else none

def round? (num den : Nat) : Option Magnitude :=
  let scale := scaleOf (num * one / den)
  ofParts? (divideEven (num * one) (den * 2 ^ scale)) scale

theorem divideEven_le (num den : Nat) : divideEven num den ≤ num / den + 1 := by
  simp only [divideEven]
  split
  · omega
  · split <;> omega

theorem le_divideEven (num den : Nat) : num / den ≤ divideEven num den := by
  simp only [divideEven]
  split
  · omega
  · split <;> omega

end Magnitude

namespace Number

/-- A magnitude that may lie beyond the largest, with a sign. -/
def ofSize (negative : Bool) : Option Magnitude → Number
  | some x => .finite negative x
  | none   => .infinite negative

/-- The number nearest to a fraction. -/
def ofFraction (negative : Bool) (num den : Nat) : Number := ofSize negative (Magnitude.round? num den)

def ofNat (n : Nat) : Number := ofFraction false n 1

/-- The number nearest to a whole number; zero is the positive one. -/
def ofInt (n : Int) : Number := ofFraction (n < 0) n.natAbs 1

end Number

end Readback
