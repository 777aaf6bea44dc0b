import Readback.Number.Decimal
/-!
# The shortest decimal that reads back

Of all decimals that round to a given magnitude, `shortest` is one with the fewest digits, and of those the nearest to
the magnitude; of two equally near it is the upper one.  For each count of digits from one to seventeen it looks at the
two neighbours of the magnitude on the decimal grid with that many digits.  Whatever comes out rounds to the magnitude,
because the exact decimal stands behind the search.
-/
namespace Readback

-- Powers of natural numbers are those that come with the numbers, whatever other instances are there.
attribute [local instance (2000)] instPowNat

namespace Magnitude

/-- The power of ten above a magnitude that is not zero: it is at least a tenth of the power, and below the power. -/
def decimalPoint (x : Magnitude) : Int :=
  if one ≤ x.units then (Text.digitCount (x.units / one) : Int)
  else 1 - (Text.digitCount ((one - 1) / x.units) : Int)

/-- The decimal that is exactly the magnitude. -/
def exact (x : Magnitude) : Decimal := ⟨x.units * 5 ^ (1074 : Nat), -1074⟩

/-- The magnitude in steps of `10 ^ step`, as a fraction. -/
def inSteps (x : Magnitude) (step : Int) : Nat × Nat :=
  match step with
  | .ofNat k   => (x.units, one * 10 ^ k)
  | .negSucc k => (x.units * 10 ^ (k + 1), one)

def readsBack (x : Magnitude) (d : Decimal) : Bool := d.round? == some x

/-- The nearer neighbour of the magnitude, among those that read back, on the grid with steps of `10 ^ step`. -/
def onGrid? (x : Magnitude) (step : Int) : Option Decimal :=
  let f := x.inSteps step
  let below : Decimal := ⟨f.1 / f.2, step⟩
  let above : Decimal := ⟨f.1 / f.2 + 1, step⟩
  match x.readsBack below, x.readsBack above with
  | true, true   => if 2 * (f.1 % f.2) < f.2 then some below else some above
  | true, false  => some below
  | false, true  => some above
  | false, false => none

/-- The first hit with `n` digits or more, up to `n + more`. -/
def firstHit (x : Magnitude) (n : Nat) : Nat → Option Decimal
  | 0        => x.onGrid? (x.decimalPoint - n)
  | more + 1 => (x.onGrid? (x.decimalPoint - n)).or (firstHit x (n + 1) more)

def shortest (x : Magnitude) : Decimal := ((x.firstHit 1 16).getD x.exact).strip

theorem readsBack_of_onGrid? {x : Magnitude} {step : Int} {d : Decimal} (h : x.onGrid? step = some d) :
    x.readsBack d = true := by
  unfold onGrid? at h
  simp only at h
  split at h <;> try split at h
  all_goals cases h
  all_goals assumption

theorem readsBack_of_firstHit {x : Magnitude} {d : Decimal} :
    ∀ {more n : Nat}, x.firstHit n more = some d → x.readsBack d = true
  | 0, _, h => readsBack_of_onGrid? h
  | more + 1, n, h => by
    rw [firstHit, Option.or_eq_some_iff] at h
    rcases h with h | ⟨_, h⟩
    · exact readsBack_of_onGrid? h
    · exact readsBack_of_firstHit h

end Magnitude

end Readback
