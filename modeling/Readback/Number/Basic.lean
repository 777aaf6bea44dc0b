/-!
# Binary64 numbers

A number is NaN, an infinity, or a sign and a magnitude.  A magnitude is a whole number of units of 2^-1074, the least
positive magnitude: a mantissa below 2^53 shifted left by a scale of at most 2045.  A scale other than zero needs a full
mantissa, so each magnitude has one form, and two numbers are equal as data exactly when they are the same value: NaN is
itself, and zero and negative zero differ.  Comparison in the sense of IEEE 754 is `Number.equals`.
-/
namespace Readback

-- Powers of natural numbers are those that come with the numbers, whatever other instances are there.
attribute [local instance (2000)] instPowNat

/-- The largest scale of a magnitude. -/
def Magnitude.maxScale : Nat := 2045

structure Magnitude where
  mantissa    : Nat
  scale       : Nat
  mantissa_lt : mantissa < 2 ^ (53 : Nat)
  scale_le    : scale ≤ Magnitude.maxScale
  full        : scale ≠ 0 → 2 ^ (52 : Nat) ≤ mantissa
deriving DecidableEq

namespace Magnitude

/-- The magnitude in units of 2^-1074. -/
def units (x : Magnitude) : Nat := x.mantissa * 2 ^ x.scale

/-- How many units make one. -/
def one : Nat := 2 ^ (1074 : Nat)

def zero : Magnitude := ⟨0, 0, by decide, by decide, by simp⟩

instance : Inhabited Magnitude := ⟨zero⟩

/-- The whole part. -/
def whole (x : Magnitude) : Nat := x.units / one

theorem units_zero : zero.units = 0 := by simp [units, zero]

theorem units_eq_zero {x : Magnitude} : x.units = 0 ↔ x = zero := by
  refine ⟨fun h => ?_, fun h => h ▸ units_zero⟩
  have hm : x.mantissa = 0 := by
    rcases Nat.mul_eq_zero.1 h with h | h
    · exact h
    · exact absurd h (Nat.pos_iff_ne_zero.1 (Nat.two_pow_pos _))
  have hs : x.scale = 0 := by
    by_cases hs : x.scale = 0
    · exact hs
    · exact absurd (x.full hs) (by rw [hm]; decide)
  cases x
  simp_all [zero]

end Magnitude

inductive Number where
  | nan
  | infinite (negative : Bool)
  | finite (negative : Bool) (size : Magnitude)
deriving DecidableEq, Inhabited

namespace Number

def zero : Number := .finite false .zero

/-- The number with the opposite sign; NaN has none. -/
def negate : Number → Number
  | .nan        => .nan
  | .infinite s => .infinite (!s)
  | .finite s x => .finite (!s) x

/-- Equality of IEEE 754: NaN differs from everything, and the two zeros are equal. -/
def equals : Number → Number → Bool
  | .infinite s, .infinite t => s == t
  | .finite s x, .finite t y => x == y && (s == t || x == .zero)
  | _, _                     => false

/-- The number without what follows its point; NaN and the infinities have none. -/
def whole? : Number → Option Int
  | .finite false x => some (x.whole : Int)
  | .finite true x  => some (-(x.whole : Int))
  | _               => none

/-! ## The interchange form

A sign bit, eleven bits of exponent and fifty-two bits of fraction.  The exponent zero stands for a mantissa that is the
fraction alone, any other but the largest for a full mantissa, and the largest for the infinities and NaN. -/

def ofBits (bits : Nat) : Number :=
  let negative := bits / 2 ^ (63 : Nat) % 2 == 1
  let exponent := bits / 2 ^ (52 : Nat) % 2 ^ (11 : Nat)
  let fraction := bits % 2 ^ (52 : Nat)
  have lt : fraction < 2 ^ (52 : Nat) := Nat.mod_lt _ (by decide)
  if h : exponent = 0 then
    .finite negative ⟨fraction, 0, by omega, by decide, by simp⟩
  else if h' : exponent = 2047 then
    if fraction = 0 then .infinite negative else .nan
  else
    have le : exponent < 2 ^ (11 : Nat) := Nat.mod_lt _ (by decide)
    .finite negative ⟨2 ^ (52 : Nat) + fraction, exponent - 1, by omega, by simp only [Magnitude.maxScale]; omega, by omega⟩

end Number

end Readback
