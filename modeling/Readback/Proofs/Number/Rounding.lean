import Mathlib.Data.Nat.Log
import Mathlib.Tactic.Ring
import Readback.Number.Shortest
/-!
# Rounding what need not be rounded

A fraction that is a magnitude rounds to it.  So the shortest decimal of a magnitude rounds to it too: either it was found to,
or it is the magnitude exactly; and the zeros at its end do not matter.
-/
namespace Readback

namespace Magnitude

variable {x : Magnitude} {a b k num den : Nat}

/-! ## Fractions -/

theorem one_pos : 0 < one := Nat.two_pow_pos 1074

theorem divideEven_mul (hk : 0 < k) : divideEven (a * k) (b * k) = divideEven a b := by
  have h₁ : ∀ u v : Nat, 2 * (u * k) < v * k ↔ 2 * u < v := fun u v => by
    rw [← Nat.mul_assoc, Nat.mul_lt_mul_right hk]
  have h₂ : ∀ u v : Nat, 2 * (u * k) = v * k ↔ 2 * u = v := fun u v => by
    rw [← Nat.mul_assoc, Nat.mul_left_inj (Nat.pos_iff_ne_zero.1 hk)]
  unfold divideEven
  dsimp only
  rw [Nat.mul_div_mul_right _ _ hk, Nat.mul_mod_mul_right]
  simp only [h₁, h₂]

/-- A fraction rounds as it does in other terms. -/
theorem round?_mul (hk : 0 < k) : round? (a * k) (b * k) = round? a b := by
  have hd : a * k * one / (b * k) = a * one / b := by
    rw [Nat.mul_right_comm, Nat.mul_div_mul_right _ _ hk]
  unfold round?
  dsimp only
  rw [hd, Nat.mul_right_comm a, Nat.mul_right_comm b, divideEven_mul hk]

theorem divideEven_exact (hb : 0 < b) : divideEven (a * b) b = a := by
  unfold divideEven
  dsimp only
  rw [Nat.mul_div_cancel _ hb, Nat.mul_mod_left, if_pos (by omega)]

theorem scaleOf_units (x : Magnitude) : scaleOf x.units = x.scale := by
  unfold scaleOf units
  by_cases hs : x.scale = 0
  · rw [hs, Nat.pow_zero, Nat.mul_one, if_pos x.mantissa_lt]
  · have hm := x.full hs
    have hlog : (x.mantissa * 2 ^ x.scale).log2 = 52 + x.scale := by
      rw [Nat.log2_eq_iff (Nat.mul_pos (by omega) (Nat.two_pow_pos _)).ne']
      constructor
      · rw [Nat.pow_add]
        exact Nat.mul_le_mul_right _ hm
      · rw [Nat.add_right_comm, Nat.pow_add]
        exact Nat.mul_lt_mul_of_pos_right x.mantissa_lt (Nat.two_pow_pos _)
    have hlarge : ¬ x.mantissa * 2 ^ x.scale < 2 ^ 53 := by
      rw [Nat.not_lt]
      calc 2 ^ 53 = 2 ^ 52 * 2 ^ 1 := by rw [← Nat.pow_add]
        _ ≤ x.mantissa * 2 ^ x.scale := Nat.mul_le_mul hm (Nat.pow_le_pow_right (by omega) (by omega))
    rw [if_neg hlarge, hlog, Nat.add_sub_cancel_left]

/-- **A fraction that is a magnitude rounds to it.** -/
theorem round?_exact (hden : 0 < den) (h : num * one = x.units * den) : round? num den = some x := by
  have hparts : num * one = x.mantissa * (den * 2 ^ x.scale) := by
    rw [h, units, Nat.mul_assoc, Nat.mul_comm den]
  unfold round?
  dsimp only
  rw [h, Nat.mul_div_cancel _ hden, scaleOf_units, ← h, hparts,
    divideEven_exact (Nat.mul_pos hden (Nat.two_pow_pos _))]
  unfold ofParts?
  rw [dif_pos ⟨x.mantissa_lt, x.scale_le, x.full⟩]

/-- What is as large as the largest decimals that are looked at is beyond every magnitude. -/
theorem round?_eq_none (h : 2 ^ 1024 ≤ num) : round? num 1 = none := by
  have hcount : 2 ^ 2098 ≤ num * one / 1 := by
    rw [Nat.div_one, one, show 2098 = 1024 + 1074 from rfl, Nat.pow_add]
    exact Nat.mul_le_mul_right _ h
  have hlog : 2098 ≤ (num * one / 1).log2 :=
    (Nat.le_log2 (Nat.lt_of_lt_of_le (Nat.two_pow_pos _) hcount).ne').2 hcount
  have hscale : 2046 ≤ scaleOf (num * one / 1) := by
    unfold scaleOf
    rw [if_neg (Nat.not_lt.2 (Nat.le_trans (Nat.pow_le_pow_right (by omega) (by omega)) hcount))]
    omega
  unfold round?
  dsimp only
  generalize scaleOf (num * one / 1) = scale at *
  unfold ofParts?
  rw [dif_neg fun hp => absurd hp.2.1 (by rw [maxScale]; omega), dif_neg fun hp => absurd hp.2 (by rw [maxScale]; omega)]

end Magnitude

/-! ## Decimals -/

namespace Text

theorem digitCount_pos (n : Nat) : 0 < digitCount n := by
  unfold digitCount
  split <;> omega

theorem digitCount_div {n : Nat} (h : 10 ≤ n) : digitCount n = digitCount (n / 10) + 1 := by
  rw [digitCount, if_neg (by omega)]

theorem lt_digitCount {n k : Nat} (h : 10 ^ k ≤ n) : k < digitCount n := by
  induction k generalizing n with
  | zero => exact digitCount_pos n
  | succ k ih =>
    have hpos : 0 < 10 ^ k := Nat.pow_pos (by omega)
    rw [Nat.pow_succ] at h
    rw [digitCount_div (by omega)]
    have := @ih (n / 10) (by omega)
    omega

end Text

namespace Decimal

open Magnitude (one)

variable {m : Nat} {e : Int} {x : Magnitude}

theorem pow_le_of_le {k : Nat} (hm : m ≠ 0) (hk : 400 ≤ k) : 2 ^ 1024 ≤ m * 10 ^ k := by
  calc 2 ^ 1024 ≤ 2 ^ (3 * 400) := Nat.pow_le_pow_right (by omega) (by omega)
    _ = (2 ^ 3) ^ 400 := Nat.pow_mul _ _ _
    _ ≤ 10 ^ 400 := Nat.pow_le_pow_left (by omega) _
    _ ≤ 10 ^ k := Nat.pow_le_pow_right (by omega) hk
    _ ≤ m * 10 ^ k := Nat.le_mul_of_pos_left _ (Nat.pos_of_ne_zero hm)

/-- A decimal that is not too small for any magnitude rounds as its fraction does. -/
theorem round?_eq (hm : m ≠ 0) (hsmall : -400 ≤ Text.digitCount m + e) :
    (⟨m, e⟩ : Decimal).round? = Magnitude.round? (⟨m, e⟩ : Decimal).fraction.1 (⟨m, e⟩ : Decimal).fraction.2 := by
  unfold round?
  rw [if_neg hm]
  by_cases hlarge : 400 ≤ e
  · obtain ⟨k, rfl⟩ : ∃ k : Nat, e = .ofNat k := ⟨e.toNat, (Int.toNat_of_nonneg (by omega)).symm⟩
    have hk : 400 ≤ k := by simpa using hlarge
    rw [if_pos hlarge]
    exact (Magnitude.round?_eq_none (pow_le_of_le hm hk)).symm
  · rw [if_neg hlarge, if_neg (Int.not_lt.2 hsmall)]

/-- A zero at the end may be moved into the power. -/
theorem round?_shift (hm : m ≠ 0) : (⟨m * 10, e⟩ : Decimal).round? = (⟨m, e + 1⟩ : Decimal).round? := by
  have hcount : (Text.digitCount (m * 10) : Int) + e = Text.digitCount m + (e + 1) := by
    rw [Text.digitCount_div (by omega), Nat.mul_div_cancel _ (by omega)]
    push_cast
    ring
  by_cases hsmall : -400 ≤ (Text.digitCount m : Int) + (e + 1)
  · rw [round?_eq (by omega) (hcount ▸ hsmall), round?_eq hm hsmall]
    unfold fraction
    match e with
    | .ofNat k =>
      show Magnitude.round? (m * 10 * 10 ^ k) 1 = Magnitude.round? (m * 10 ^ (k + 1)) 1
      rw [Nat.pow_succ', Nat.mul_assoc]
    | .negSucc 0 =>
      show Magnitude.round? (m * 10) (1 * 10) = Magnitude.round? (m * 1) 1
      rw [Magnitude.round?_mul (by omega), Nat.mul_one]
    | .negSucc (k + 1) =>
      show Magnitude.round? (m * 10) (10 ^ (k + 1 + 1)) = Magnitude.round? m (10 ^ (k + 1))
      rw [Nat.pow_succ 10 (k + 1), Magnitude.round?_mul (by omega)]
  · have hd := Text.digitCount_pos m
    unfold round?
    dsimp only
    rw [if_neg (show m * 10 ≠ 0 by omega), if_neg (show ¬ 400 ≤ e by omega), if_pos (by omega), if_neg hm,
      if_neg (show ¬ 400 ≤ e + 1 by omega), if_pos (by omega)]

theorem round?_strip (d : Decimal) : d.strip.round? = d.round? := by
  fun_induction strip d with
  | case1 d h ih =>
    obtain ⟨m, e⟩ := d
    dsimp only at h ih
    have hm : m = m / 10 * 10 := by omega
    rw [ih, ← round?_shift (by omega), ← hm]
  | case2 => rfl

end Decimal

namespace Magnitude

variable {x : Magnitude}

theorem ten_pow_eq : (10 : Nat) ^ 1074 = 5 ^ 1074 * one := by
  rw [one, ← Nat.mul_pow]

theorem round?_exact_decimal (h : x ≠ .zero) : x.exact.round? = some x := by
  have hu : 0 < x.units := Nat.pos_of_ne_zero (units_eq_zero.not.2 h)
  have hcount : 716 < Text.digitCount (x.units * 5 ^ 1074) := by
    refine Text.lt_digitCount ?_
    calc 10 ^ 716 ≤ (5 ^ 3) ^ 358 := by
          rw [show 716 = 2 * 358 from rfl, Nat.pow_mul]
          exact Nat.pow_le_pow_left (by omega) _
      _ = 5 ^ 1074 := (Nat.pow_mul _ _ _).symm
      _ ≤ x.units * 5 ^ 1074 := Nat.le_mul_of_pos_left _ hu
  unfold exact
  rw [Decimal.round?_eq (Nat.mul_pos hu (Nat.pow_pos (by omega))).ne' (by omega)]
  refine round?_exact (Nat.pow_pos (by omega)) ?_
  show x.units * 5 ^ 1074 * one = x.units * 10 ^ (1073 + 1)
  rw [ten_pow_eq, Nat.mul_assoc]

/-- **The shortest decimal of a magnitude rounds to it.** -/
theorem round?_shortest (h : x ≠ .zero) : x.shortest.round? = some x := by
  unfold shortest
  rw [Decimal.round?_strip]
  cases hd : x.firstHit 1 16 with
  | none => exact round?_exact_decimal h
  | some d => simpa [readsBack] using readsBack_of_firstHit hd

end Magnitude

/-! ## Whole numbers -/

namespace Number

theorem exists_units_eq {n : Nat} (h : n < 2 ^ 53) : ∃ x : Magnitude, x.units = n * Magnitude.one := by
  by_cases hn : n = 0
  · exact ⟨.zero, by rw [Magnitude.units_zero, hn, Nat.zero_mul]⟩
  have hlog : n.log2 < 53 := (Nat.log2_lt hn).2 h
  have hle : 2 ^ n.log2 ≤ n := Nat.log2_self_le hn
  have hlt : n < 2 ^ (n.log2 + 1) := Nat.lt_log2_self
  refine ⟨⟨n * 2 ^ (52 - n.log2), n.log2 + 1022, ?_, ?_, fun _ => ?_⟩, ?_⟩
  · calc n * 2 ^ (52 - n.log2) < 2 ^ (n.log2 + 1) * 2 ^ (52 - n.log2) :=
          Nat.mul_lt_mul_of_pos_right hlt (Nat.two_pow_pos _)
      _ = 2 ^ 53 := by rw [← Nat.pow_add, show n.log2 + 1 + (52 - n.log2) = 53 by omega]
  · rw [Magnitude.maxScale]
    omega
  · calc 2 ^ 52 = 2 ^ n.log2 * 2 ^ (52 - n.log2) := by rw [← Nat.pow_add, show n.log2 + (52 - n.log2) = 52 by omega]
      _ ≤ n * 2 ^ (52 - n.log2) := Nat.mul_le_mul_right _ hle
  · show n * 2 ^ (52 - n.log2) * 2 ^ (n.log2 + 1022) = n * Magnitude.one
    rw [Nat.mul_assoc, ← Nat.pow_add, Magnitude.one, show 52 - n.log2 + (n.log2 + 1022) = 1074 by omega]

/-- **A whole number below 2^53 is a number as it is.** -/
theorem ofInt_eq {n : Int} (h : n.natAbs < 2 ^ 53) :
    ∃ x : Magnitude, x.units = n.natAbs * Magnitude.one ∧ ofInt n = .finite (decide (n < 0)) x := by
  obtain ⟨x, hx⟩ := exists_units_eq h
  have hr : Magnitude.round? n.natAbs 1 = some x := Magnitude.round?_exact Nat.one_pos (by rw [hx, Nat.mul_one])
  refine ⟨x, hx, ?_⟩
  rw [ofInt, ofFraction, hr, ofSize]

/-- A finite number is cut toward zero, whichever zero it is. -/
theorem whole?_finite (negative : Bool) (x : Magnitude) :
    (finite negative x).whole? = some ((if negative then -(x.units : Int) else x.units).tdiv Magnitude.one) := by
  cases negative with
  | false => rfl
  | true => rw [whole?, Magnitude.whole, if_pos rfl, Int.neg_tdiv, Int.ofNat_tdiv]

/-- A whole number that has a magnitude is what it was. -/
theorem whole?_ofInt {n : Int} (h : n.natAbs < 2 ^ 53) : (ofInt n).whole? = some n := by
  obtain ⟨x, hx, hn⟩ := ofInt_eq h
  have hsigned : (if decide (n < 0) = true then -(x.units : Int) else x.units) = n * Magnitude.one := by
    rw [hx]
    push_cast
    split <;> rename_i hlt <;> rw [decide_eq_true_iff] at hlt
    · rw [abs_of_neg hlt, Int.neg_mul, Int.neg_neg]
    · rw [abs_of_nonneg (Int.not_lt.1 hlt)]
  rw [hn, whole?_finite, hsigned, Int.mul_tdiv_cancel _ (Int.natCast_ne_zero.2 Magnitude.one_pos.ne')]

end Number

end Readback
