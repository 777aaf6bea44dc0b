import Readback.Proofs.Number.Rounding
/-!
# The number nearest to a whole number

Rounding is said here without an algorithm: a magnitude is nearest to a count of units when no other one is nearer, and has an
even mantissa when another one is as near; and what is at least half a step beyond the largest magnitude has an infinity for its
nearest number.  That is what rounding comes to (`Number.isNearest_ofNat`).
-/
namespace Readback

-- Powers of natural numbers are those that come with the numbers, whatever other instances are there.
attribute [local instance (2000)] instPowNat

namespace Magnitude

/-- How many units lie between a magnitude and a count of units; one of the differences is zero. -/
def distance (x : Magnitude) (u : Nat) : Nat := (x.units - u) + (u - x.units)

/-- No magnitude is nearer to the count of units, and one that is as near leaves the even mantissa to this one. -/
structure Nearest (x : Magnitude) (u : Nat) : Prop where
  closest : ∀ y : Magnitude, x.distance u ≤ y.distance u
  even    : ∀ y : Magnitude, y ≠ x → y.distance u = x.distance u → x.mantissa % 2 = 0

end Magnitude

/-- The least whole number that is too large to have a magnitude for its nearest number: half a step beyond the largest. -/
def Number.tooLarge : Nat := 2 ^ (1024 : Nat) - 2 ^ (970 : Nat)

/-- **The number is the one nearest to a whole number**, and of two that are as near the one with the even mantissa. -/
def Number.IsNearest : Number → Nat → Prop
  | .finite false x, n => n < tooLarge ∧ x.Nearest (n * Magnitude.one)
  | .infinite false, n => tooLarge ≤ n
  | _, _               => False

namespace Magnitude

variable {x y : Magnitude} {u q t m s num den : Nat}

/-! ## Magnitudes and units -/

theorem units_inj (h : x.units = y.units) : x = y := by
  have hx : round? x.units one = some x := round?_exact one_pos rfl
  have hy : round? y.units one = some y := round?_exact one_pos rfl
  rw [h] at hx
  exact Option.some.inj (hx.symm.trans hy)

/-- A magnitude is on the grid of a scale, or below all that is rounded on that grid. -/
theorem grid_or_lt (y : Magnitude) (s : Nat) : (∃ k, y.units = k * 2 ^ s) ∨ (s ≠ 0 ∧ y.units < 2 ^ (52 + s)) := by
  unfold units
  by_cases h : s ≤ y.scale
  · refine .inl ⟨y.mantissa * 2 ^ (y.scale - s), ?_⟩
    rw [Nat.mul_assoc, ← Nat.pow_add, Nat.sub_add_cancel h]
  · refine .inr ⟨by omega, ?_⟩
    calc y.mantissa * 2 ^ y.scale < 2 ^ 53 * 2 ^ y.scale := Nat.mul_lt_mul_of_pos_right y.mantissa_lt (Nat.two_pow_pos _)
      _ = 2 ^ (53 + y.scale) := (Nat.pow_add _ _ _).symm
      _ ≤ 2 ^ (52 + s) := Nat.pow_le_pow_right (by omega) (by omega)

theorem scaleOf_eq (h : 2 ^ (52 + t) ≤ u) (h' : u < 2 ^ (53 + t)) : scaleOf u = t := by
  unfold scaleOf
  cases t with
  | zero => rw [if_pos h']
  | succ t =>
    have hlarge : ¬ u < 2 ^ 53 := Nat.not_lt.2 (Nat.le_trans (Nat.pow_le_pow_right (by omega) (by omega)) h)
    have hlog : u.log2 = 52 + (t + 1) :=
      (Nat.log2_eq_iff (Nat.lt_of_lt_of_le (Nat.two_pow_pos _) h).ne').2 ⟨h, by rwa [Nat.add_right_comm]⟩
    rw [if_neg hlarge, hlog, Nat.add_sub_cancel_left]

/-- The scale of a count of units brings it between 2^52 and 2^53, unless it is below already. -/
theorem scaleOf_spec (u : Nat) : u < 2 ^ (53 + scaleOf u) ∧ (scaleOf u ≠ 0 → 2 ^ (52 + scaleOf u) ≤ u) := by
  unfold scaleOf
  split
  · rename_i h
    exact ⟨h, fun h => absurd rfl h⟩
  · rename_i h
    have hlog : 53 ≤ u.log2 := (Nat.le_log2 (by omega)).2 (Nat.not_lt.1 h)
    rw [show 53 + (u.log2 - 52) = u.log2 + 1 by omega, show 52 + (u.log2 - 52) = u.log2 by omega]
    exact ⟨Nat.lt_log2_self, fun _ => Nat.log2_self_le (by omega)⟩

/-! ## Rounding on a grid -/

/-- A count of units is rounded on the grid of its scale. -/
theorem round?_units (u : Nat) : round? u one = ofParts? (divideEven u (2 ^ scaleOf u)) (scaleOf u) := by
  unfold round?
  dsimp only
  rw [Nat.mul_div_cancel _ one_pos, Nat.mul_comm one, divideEven_mul one_pos]

theorem round?_eq_units (n : Nat) : round? n 1 = round? (n * one) one := by
  rw [← round?_mul one_pos, Nat.one_mul]

/-- The multiple of a divisor that is nearest to a number is the one below it or, from half of the divisor on, the one above. -/
theorem divideEven_cases (num : Nat) (den : Nat) :
    (divideEven num den * den = num / den * den ∧ 2 * (num % den) ≤ den ∧
      (2 * (num % den) = den → divideEven num den % 2 = 0)) ∨
    (divideEven num den * den = num / den * den + den ∧ den ≤ 2 * (num % den) ∧
      (2 * (num % den) = den → divideEven num den % 2 = 0)) := by
  unfold divideEven
  dsimp only
  split
  · exact .inl ⟨rfl, by omega, by omega⟩
  · split
    · exact .inl ⟨rfl, by omega, fun _ => by omega⟩
    · exact .inr ⟨Nat.succ_mul _ _, by omega, fun _ => by omega⟩

/-- Two multiples of a number that differ are as far apart as the number. -/
theorem le_of_multiples {k m d : Nat} (h : k ≠ m) : k * d + d ≤ m * d ∨ m * d + d ≤ k * d := by
  rw [← Nat.succ_mul, ← Nat.succ_mul]
  exact (Nat.lt_or_gt_of_ne h).imp (fun h => Nat.mul_le_mul_right _ h) fun h => Nat.mul_le_mul_right _ h

/-- A mantissa at a scale is what it says, unless it was rounded up to 2^53. -/
theorem ofParts?_cases (h : ofParts? m s = some x) :
    (x.mantissa = m ∧ x.scale = s) ∨ (m = 2 ^ 53 ∧ x.mantissa = 2 ^ 52 ∧ x.scale = s + 1) := by
  unfold ofParts? at h
  split at h
  · cases h
    exact .inl ⟨rfl, rfl⟩
  · split at h
    · rename_i hm
      cases h
      exact .inr ⟨hm.1, rfl, rfl⟩
    · cases h

theorem ofParts?_eq_some (h : ofParts? m s = some x) : x.units = m * 2 ^ s ∧ (m % 2 = 0 → x.mantissa % 2 = 0) := by
  unfold units
  rcases ofParts?_cases h with ⟨hm, hs⟩ | ⟨rfl, hm, hs⟩
  · rw [hm, hs]
    exact ⟨rfl, id⟩
  · rw [hm, hs]
    refine ⟨?_, fun _ => by decide⟩
    rw [← Nat.pow_add, ← Nat.pow_add, show 52 + (s + 1) = 53 + s by omega]

/-- **Rounding comes to the nearest magnitude**, if it comes to one. -/
theorem nearest_of_round? (h : round? u one = some x) : x.Nearest u := by
  rw [round?_units] at h
  obtain ⟨-, hlarge⟩ := scaleOf_spec u
  generalize scaleOf u = s at h hlarge
  obtain ⟨hx, heven⟩ := ofParts?_eq_some h
  have hsplit := Nat.div_add_mod' u (2 ^ s)
  have hrest := Nat.mod_lt u (Nat.two_pow_pos s)
  have hsteps := divideEven_cases u (2 ^ s)
  -- Another magnitude is on the grid, and half a step away at least, or below the multiple that is below the number.
  have other : ∀ y : Magnitude, y ≠ x →
      x.distance u ≤ y.distance u ∧ (y.distance u = x.distance u → divideEven u (2 ^ s) % 2 = 0) := by
    intro y hne
    unfold distance
    rw [hx]
    rcases grid_or_lt y s with ⟨k, hk⟩ | ⟨hs, hlt⟩
    · have hkm : k ≠ divideEven u (2 ^ s) := fun he => hne (units_inj (by rw [hx, hk, he]))
      have hapart := le_of_multiples (d := 2 ^ s) hkm
      rw [hk]
      omega
    · have hbelow : y.units < u / 2 ^ s * 2 ^ s := by
        refine Nat.lt_of_lt_of_le hlt ?_
        rw [Nat.pow_add]
        refine Nat.mul_le_mul_right _ ((Nat.le_div_iff_mul_le (Nat.two_pow_pos s)).2 ?_)
        rw [← Nat.pow_add]
        exact hlarge hs
      omega
  exact ⟨fun y => (eq_or_ne y x).elim (fun he => he ▸ Nat.le_refl _) fun hne => (other y hne).1,
    fun y hne he => heven ((other y hne).2 he)⟩

/-- The mantissa is rounded up to 2^53 from half a step before it on. -/
theorem divideEven_carry (hu : u < 2 ^ (53 + (t + 1))) :
    divideEven u (2 ^ (t + 1)) = 2 ^ 53 ↔ (2 ^ 54 - 1) * 2 ^ t ≤ u := by
  have hpos : 0 < 2 ^ (t + 1) := Nat.two_pow_pos _
  have hlt : u / 2 ^ (t + 1) < 2 ^ 53 := (Nat.div_lt_iff_lt_mul hpos).2 (by rwa [← Nat.pow_add])
  have hsplit := Nat.div_add_mod' u (2 ^ (t + 1))
  have hrest := Nat.mod_lt u hpos
  unfold divideEven
  dsimp only
  rw [Nat.pow_succ'] at *
  generalize 2 ^ t = h at *
  constructor
  · intro hcarry
    have hlast : u / (2 * h) = 2 ^ 53 - 1 ∧ 2 * h ≤ 2 * (u % (2 * h)) := by
      split at hcarry
      · omega
      · split at hcarry
        · omega
        · omega
    rw [hlast.1] at hsplit
    omega
  · intro hle
    have hlast : u / (2 * h) = 2 ^ 53 - 1 := by
      have : 2 ^ 53 - 1 ≤ u / (2 * h) := (Nat.le_div_iff_mul_le hpos).2 (by omega)
      omega
    rw [hlast] at hsplit ⊢
    rw [if_neg (by omega), if_neg (by omega)]
    rfl

/-- What is rounded on the grid of its scale is at most 2^53 steps, and a full mantissa unless the scale is zero. -/
theorem divideEven_bounds (u : Nat) : divideEven u (2 ^ scaleOf u) ≤ 2 ^ 53 ∧
    (scaleOf u ≠ 0 → 2 ^ 52 ≤ divideEven u (2 ^ scaleOf u)) := by
  obtain ⟨hlt, hle⟩ := scaleOf_spec u
  have hpos : 0 < 2 ^ scaleOf u := Nat.two_pow_pos _
  constructor
  · refine Nat.le_trans (divideEven_le _ _) ((Nat.div_lt_iff_lt_mul hpos).2 ?_)
    rwa [← Nat.pow_add]
  · intro hs
    refine Nat.le_trans ((Nat.le_div_iff_mul_le hpos).2 ?_) (le_divideEven _ _)
    rw [← Nat.pow_add]
    exact hle hs

theorem ofParts?_eq_none_iff (hm : m ≤ 2 ^ 53) (hs : s ≠ 0 → 2 ^ 52 ≤ m) :
    ofParts? m s = none ↔ maxScale < s ∨ (s = maxScale ∧ m = 2 ^ 53) := by
  unfold ofParts?
  split
  · simp only [reduceCtorEq, false_iff]
    omega
  · split
    · simp only [reduceCtorEq, false_iff]
      omega
    · simp only [true_iff]
      by_cases h : m < 2 ^ 53
      · exact .inl (Nat.lt_of_not_le fun hle => ‹¬(_ ∧ _ ∧ _)› ⟨h, hle, hs⟩)
      · omega

theorem tooLarge_units (ht : t + 1 = maxScale) : Number.tooLarge * one = (2 ^ 54 - 1) * 2 ^ t := by
  rw [maxScale, Nat.succ_inj] at ht
  subst ht
  decide +kernel

/-- **Rounding comes to nothing** just from half a step beyond the largest magnitude on. -/
theorem round?_eq_none_iff : round? u one = none ↔ Number.tooLarge * one ≤ u := by
  obtain ⟨t, ht⟩ : ∃ t, t + 1 = maxScale := ⟨2044, rfl⟩
  obtain ⟨hlt, hle⟩ := scaleOf_spec u
  obtain ⟨hm, hfull⟩ := divideEven_bounds u
  have habove : 2 ^ (53 + t) ≤ (2 ^ 54 - 1) * 2 ^ t := Nat.pow_add 2 53 t ▸ Nat.mul_le_mul_right _ (by decide)
  have hbelow : (2 ^ 54 - 1) * 2 ^ t ≤ 2 ^ (54 + t) := Nat.pow_add 2 54 t ▸ Nat.mul_le_mul_right _ (by decide)
  rw [round?_units, tooLarge_units ht, ofParts?_eq_none_iff hm hfull, ← ht]
  generalize scaleOf u = s at *
  rcases Nat.lt_trichotomy s (t + 1) with hs | rfl | hs
  · have hu : u < 2 ^ (53 + t) := Nat.lt_of_lt_of_le hlt (Nat.pow_le_pow_right (by omega) (by omega))
    exact iff_of_false (by omega) (Nat.not_le.2 (Nat.lt_of_lt_of_le hu habove))
  · rw [← divideEven_carry hlt]
    simp only [Nat.lt_irrefl, true_and, false_or]
  · have hu : 2 ^ (54 + t) ≤ u := Nat.le_trans (Nat.pow_le_pow_right (by omega) (by omega)) (hle (by omega))
    exact iff_of_true (.inl hs) (Nat.le_trans hbelow hu)

end Magnitude

open Magnitude in
/-- **The number of a whole number is the one nearest to it.** -/
theorem Number.isNearest_ofNat (n : Nat) : (ofNat n).IsNearest n := by
  unfold ofNat ofFraction
  rw [round?_eq_units]
  cases h : round? (n * one) one with
  | none =>
    show tooLarge ≤ n
    exact (Nat.mul_le_mul_right_iff Magnitude.one_pos).1 (round?_eq_none_iff.1 h)
  | some x =>
    refine ⟨Nat.lt_of_not_le fun hl => ?_, nearest_of_round? h⟩
    rw [round?_eq_none_iff.2 (Nat.mul_le_mul_right _ hl)] at h
    cases h

end Readback
