import Readback.Number.Rounding
import Readback.Text.Digits
/-!
# Decimals

A decimal is a whole number of digits and a power of ten.  `Decimal.round?` is the magnitude nearest to it.  A decimal
at or above 10^400 lies beyond every magnitude and one below 10^-400 rounds to zero, so the powers that are worked out
exactly are bounded.
-/
namespace Readback

-- Powers of natural numbers are those that come with the numbers, whatever other instances are there.
attribute [local instance (2000)] instPowNat

structure Decimal where
  digits   : Nat
  exponent : Int
deriving DecidableEq, Inhabited

namespace Decimal

/-- The decimal as a fraction. -/
def fraction (d : Decimal) : Nat × Nat :=
  match d.exponent with
  | .ofNat k   => (d.digits * 10 ^ k, 1)
  | .negSucc k => (d.digits, 10 ^ (k + 1))

def round? (d : Decimal) : Option Magnitude :=
  if d.digits = 0 then some .zero
  else if 400 ≤ d.exponent then none
  else if Text.digitCount d.digits + d.exponent < -400 then some .zero
  else Magnitude.round? d.fraction.1 d.fraction.2

/-- The same decimal without the zeros at the end of its digits. -/
def strip (d : Decimal) : Decimal :=
  if h : 10 ≤ d.digits ∧ d.digits % 10 = 0 then strip ⟨d.digits / 10, d.exponent + 1⟩ else d
termination_by d.digits
decreasing_by omega

/-- Where the point stands: the decimal is `0.d₁…dₖ` times ten to this power. -/
def point (d : Decimal) : Int := Text.digitCount d.digits + d.exponent

end Decimal

end Readback
