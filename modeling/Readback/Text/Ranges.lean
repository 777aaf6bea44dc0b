/-!
# Classes of characters, as tables of code points

A table lists the ranges of its class in ascending order, ends included.  `inRanges` stops at the first range that
starts beyond the code point, so that the letters of a snippet cost a step or two.
-/
namespace Readback.Text

def inRanges : List (Nat × Nat) → Nat → Bool
  | [], _                => false
  | (low, high) :: rs, n => if n < low then false else if n ≤ high then true else inRanges rs n

/-- The ranges ascend, and do not touch. -/
def ascending : List (Nat × Nat) → Bool
  | (a, b) :: (c, d) :: rs => a ≤ b && b + 1 < c && ascending ((c, d) :: rs)
  | [(a, b)]               => a ≤ b
  | []                     => true

end Readback.Text
