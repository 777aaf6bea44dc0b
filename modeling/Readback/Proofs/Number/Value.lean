import Mathlib.Algebra.Field.Rat
import Mathlib.Tactic.FieldSimp
import Mathlib.Tactic.NormNum.Basic
import Readback.Proofs.Number.Rounding
/-!
# The value of a decimal

A decimal stands for an exact rational number.  One number has many decimals: zeros may stand at the end of the digits, or be
left to the power.  It rounds the same whichever of them it is read from (`round?_congr`).
-/
namespace Readback.Decimal

-- Powers of natural numbers are those that come with the numbers, whatever other instances are there.
attribute [local instance (2000)] instPowNat

variable {d e : Decimal} {m : Nat}

/-- The number that a decimal stands for. -/
def value (d : Decimal) : ℚ := d.digits * (10 : ℚ) ^ d.exponent

/-- Zeros at the end of the digits may be moved into the power. -/
theorem value_zeros (m k : Nat) (p : Int) : (⟨m * 10 ^ k, p⟩ : Decimal).value = (⟨m, p + k⟩ : Decimal).value := by
  show ((m * 10 ^ k : Nat) : ℚ) * (10 : ℚ) ^ p = (m : ℚ) * (10 : ℚ) ^ (p + k)
  rw [zpow_add₀ (by norm_num), zpow_natCast]
  push_cast
  ring

/-- Zeros that are moved into the power are not missed when the decimal is rounded. -/
theorem round?_zeros (m k : Nat) (p : Int) : (⟨m * 10 ^ k, p⟩ : Decimal).round? = (⟨m, p + k⟩ : Decimal).round? := by
  by_cases hm : m = 0
  · subst hm
    unfold round?
    dsimp only
    rw [Nat.zero_mul, if_pos rfl, if_pos rfl]
  induction k generalizing p with
  | zero => rw [Nat.pow_zero, Nat.mul_one, Nat.cast_zero, Int.add_zero]
  | succ k ih =>
    have hmk : m * 10 ^ k ≠ 0 := Nat.mul_ne_zero hm (Nat.pow_pos (by omega)).ne'
    rw [Nat.pow_succ, ← Nat.mul_assoc, round?_shift hmk, ih, Nat.cast_succ, Int.add_assoc, Int.add_comm 1]

/-- Of two decimals of one number, the one with the smaller power has the zeros. -/
theorem exists_zeros (h : d.value = e.value) (hle : d.exponent ≤ e.exponent) :
    ∃ k : Nat, d.digits = e.digits * 10 ^ k ∧ e.exponent = d.exponent + k := by
  obtain ⟨k, hk⟩ := Int.le.dest hle
  refine ⟨k, ?_, hk.symm⟩
  unfold value at h
  rw [← hk, zpow_add₀ (by norm_num), zpow_natCast, mul_comm ((10 : ℚ) ^ d.exponent), ← mul_assoc] at h
  exact_mod_cast mul_right_cancel₀ (zpow_ne_zero d.exponent (by norm_num)) h

/-- **Decimals of one number round to the same magnitude.** -/
theorem round?_congr (h : d.value = e.value) : d.round? = e.round? := by
  obtain hle | hle := Int.le_total d.exponent e.exponent
  · obtain ⟨k, hd, he⟩ := exists_zeros h hle
    obtain ⟨m, p⟩ := d
    obtain ⟨n, q⟩ := e
    dsimp only at hd he
    rw [hd, he, round?_zeros]
  · obtain ⟨k, he, hd⟩ := exists_zeros h.symm hle
    obtain ⟨m, p⟩ := d
    obtain ⟨n, q⟩ := e
    dsimp only at hd he
    rw [hd, he, round?_zeros]

end Readback.Decimal
