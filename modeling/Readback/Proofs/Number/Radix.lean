import Mathlib.Tactic.FinCases
import Readback.Proofs.Number.Nearest
import Readback.Proofs.Token.Spelling
/-!
# Radix literals

The sum of the digits of a radix literal is rounded at each digit.  As long as the sum stays below 2^53 it is exact; from then
on a digit adds less than half a step, and is rounded off at once (`addDigit_ofNat`).  So the digits are heard up to there and
are zeros after that, and the literal denotes the number nearest to what is heard.  What the unheard digits add matters in one
case only: what is heard is halfway between two numbers, and the lower one is even.  They would have tipped the balance.
-/
namespace Readback

-- Powers of natural numbers are those that come with the numbers, whatever other instances are there.
attribute [local instance (2000)] instPowNat

namespace Number

/-- One more digit: it is heard as long as what comes before it is below 2^53. -/
def hear (base n digit : Nat) : Nat := if n < 2 ^ (53 : Nat) then n * base + digit else n * base

/-- What is heard of digits. -/
def heard (base : Nat) (ds : List Nat) : Nat := ds.foldl (hear base) 0

/-- The number is halfway between two mantissas at a scale, and the lower one is even. -/
def Halfway (n : Nat) : Prop :=
  ∃ q k : Nat, 2 ^ (52 : Nat) ≤ q ∧ q < 2 ^ (53 : Nat) ∧ q % 2 = 0 ∧ n = (2 * q + 1) * 2 ^ k

/-- What is heard of a number would have been rounded up if all of it had been heard. -/
def Misheard (heard n : Nat) : Prop := Halfway heard ∧ heard < n ∧ heard < tooLarge

/-- The one number is the other with zeros for the last of its binary digits, which are not among the first 54. -/
def Cut (n w : Nat) : Prop := ∃ a p t : Nat, 2 ^ (53 : Nat) ≤ a ∧ t < 2 ^ p ∧ n = a * 2 ^ p ∧ w = n + t

end Number

namespace Magnitude

variable {x : Magnitude} {b d e m n s t u : Nat}

theorem exists_one : ∃ o, one = 2 ^ o := by
  rw [one]
  exact exists_apply_eq_apply' _ _

/-! ## Rounding at another scale -/

theorem scaleOf_mul (hn : 2 ^ 52 ≤ n) (b : Nat) : scaleOf (n * 2 ^ b) = scaleOf n + b := by
  obtain ⟨hlt, hle⟩ := scaleOf_spec n
  have hlarge : 2 ^ (52 + scaleOf n) ≤ n := by
    by_cases h : scaleOf n = 0
    · rwa [h]
    · exact hle h
  refine scaleOf_eq ?_ ?_
  · rw [← Nat.add_assoc, Nat.pow_add]
    exact Nat.mul_le_mul_right _ hlarge
  · rw [← Nat.add_assoc, Nat.pow_add]
    exact Nat.mul_lt_mul_of_pos_right hlt (Nat.two_pow_pos b)

theorem round?_shift (hn : 2 ^ 52 ≤ n) (b : Nat) :
    round? (n * 2 ^ b) one = ofParts? (divideEven n (2 ^ scaleOf n)) (scaleOf n + b) := by
  rw [round?_units, scaleOf_mul hn, Nat.pow_add, divideEven_mul (Nat.two_pow_pos b)]

theorem ofParts?_carry (s : Nat) : ofParts? (2 ^ 53) s = ofParts? (2 ^ 52) (s + 1) := by
  unfold ofParts?
  rw [dif_neg (fun h => absurd h.1 (Nat.lt_irrefl _))]
  by_cases hs : s + 1 ≤ maxScale
  · rw [dif_pos ⟨rfl, hs⟩, dif_pos ⟨by decide, hs, fun _ => Nat.le_refl _⟩]
  · rw [dif_neg fun h => hs h.2, dif_neg fun h => hs h.2.1, dif_neg fun h => absurd h.1 (by decide)]

theorem ofParts?_shift (h : ofParts? m s = some x) (b : Nat) : ofParts? m (s + b) = ofParts? x.mantissa (x.scale + b) := by
  rcases ofParts?_cases h with ⟨hm, hs⟩ | ⟨rfl, hm, hs⟩
  · rw [hm, hs]
  · rw [hm, hs, ofParts?_carry, Nat.add_right_comm]

/-- What is less than half a step is rounded off. -/
theorem round?_absorb (hx : x.scale ≠ 0) (he : 2 * e < 2 ^ (x.scale + b)) :
    round? (x.units * 2 ^ b + e) one = ofParts? x.mantissa (x.scale + b) := by
  have hpos : 0 < 2 ^ (x.scale + b) := Nat.two_pow_pos _
  have hunits : x.units * 2 ^ b = x.mantissa * 2 ^ (x.scale + b) := by rw [units, Nat.mul_assoc, ← Nat.pow_add]
  have hscale : scaleOf (x.units * 2 ^ b + e) = x.scale + b := by
    rw [hunits]
    refine scaleOf_eq ?_ ?_
    · rw [Nat.pow_add]
      exact Nat.le_add_right_of_le (Nat.mul_le_mul_right _ (x.full hx))
    · calc x.mantissa * 2 ^ (x.scale + b) + e < (x.mantissa + 1) * 2 ^ (x.scale + b) := by rw [Nat.succ_mul]; omega
        _ ≤ 2 ^ 53 * 2 ^ (x.scale + b) := Nat.mul_le_mul_right _ x.mantissa_lt
        _ = 2 ^ (53 + (x.scale + b)) := (Nat.pow_add _ _ _).symm
  have hdiv : (x.mantissa * 2 ^ (x.scale + b) + e) / 2 ^ (x.scale + b) = x.mantissa := by
    rw [Nat.add_comm, Nat.add_mul_div_right _ _ hpos, Nat.div_eq_of_lt (by omega), Nat.zero_add]
  have hmod : (x.mantissa * 2 ^ (x.scale + b) + e) % 2 ^ (x.scale + b) = e := by
    rw [Nat.mul_add_mod_self_right, Nat.mod_eq_of_lt (by omega)]
  rw [round?_units, hscale, hunits]
  unfold divideEven
  dsimp only
  rw [hdiv, hmod, if_pos he]

/-- **A digit behind 53 binary digits is rounded off at once**, and rounds nothing that was rounded before. -/
theorem round?_digit (hn : 2 ^ 53 ≤ n) (hd : d < 2 ^ b) (h : round? (n * one) one = some x) :
    round? (x.units * 2 ^ b + d * one) one = round? (n * 2 ^ b * one) one := by
  have hfull : 2 ^ 52 ≤ n := Nat.le_trans (by decide) hn
  have hscale : scaleOf n ≠ 0 := fun h => by
    have := (scaleOf_spec n).1
    rw [h] at this
    omega
  obtain ⟨o, ho⟩ := exists_one
  have hparts : ofParts? (divideEven n (2 ^ scaleOf n)) (scaleOf n + o) = some x := by
    rw [← round?_shift hfull, ← ho, h]
  have hx : 1 + o ≤ x.scale := by
    rcases ofParts?_cases hparts with ⟨-, hs⟩ | ⟨-, -, hs⟩ <;> omega
  have he : 2 * (d * one) < 2 ^ (x.scale + b) := by
    calc 2 * (d * one) = 2 ^ (1 + o) * d := by rw [ho, Nat.pow_add, Nat.pow_one, Nat.mul_comm d, Nat.mul_assoc]
      _ < 2 ^ (1 + o) * 2 ^ b := Nat.mul_lt_mul_of_pos_left hd (Nat.two_pow_pos _)
      _ ≤ 2 ^ x.scale * 2 ^ b := Nat.mul_le_mul_right _ (Nat.pow_le_pow_right (by omega) hx)
      _ = 2 ^ (x.scale + b) := (Nat.pow_add _ _ _).symm
  rw [round?_absorb (by omega) he, ho, Nat.mul_assoc, ← Nat.pow_add, ← ho, round?_shift hfull, Nat.add_comm b,
    ← Nat.add_assoc, ofParts?_shift hparts]

/-- Cutting does not change how a quotient is rounded, unless what is left is halfway. -/
theorem divideEven_cut {a c p : Nat} (ht : t < p) :
    divideEven (a * p + t) (2 * c * p) = divideEven a (2 * c) ∨ (0 < t ∧ a % (2 * c) = c ∧ a / (2 * c) % 2 = 0) := by
  have hp : 0 < p := by omega
  have hquot : (a * p + t) / p = a := by
    rw [Nat.add_comm, Nat.add_mul_div_right _ _ hp, Nat.div_eq_of_lt ht, Nat.zero_add]
  have hdiv : (a * p + t) / (2 * c * p) = a / (2 * c) := by
    rw [Nat.mul_comm (2 * c), ← Nat.div_div_eq_div_mul, hquot]
  have hmod : (a * p + t) % (2 * c * p) = t + p * (a % (2 * c)) := by
    rw [Nat.mul_comm (2 * c), Nat.mod_mul, hquot, Nat.mul_add_mod_self_right, Nat.mod_eq_of_lt ht]
  unfold divideEven
  dsimp only
  rw [hdiv, hmod, Nat.mul_assoc 2 c, Nat.mul_comm c]
  generalize a / (2 * c) = q
  generalize a % (2 * c) = r
  rcases Nat.lt_trichotomy r c with hr | rfl | hr
  · have : p * (r + 1) ≤ p * c := Nat.mul_le_mul_left _ hr
    rw [Nat.mul_succ] at this
    rw [if_pos (by omega), if_pos (by omega)]
    exact .inl rfl
  · by_cases h : 0 < t ∧ q % 2 = 0
    · exact .inr ⟨h.1, rfl, h.2⟩
    · refine .inl ?_
      rw [if_neg (by omega), if_neg (Nat.lt_irrefl _)]
      by_cases hq : q % 2 = 0
      · rw [if_pos ⟨by omega, hq⟩, if_pos ⟨rfl, hq⟩]
      · rw [if_neg fun h => hq h.2, if_neg fun h => hq h.2]
  · have : p * (c + 1) ≤ p * r := Nat.mul_le_mul_left _ hr
    rw [Nat.mul_succ] at this
    rw [if_neg (by omega), if_neg (by omega), if_neg (by omega), if_neg (by omega)]
    exact .inl rfl

theorem scaleOf_halfway {q k : Nat} (hq : 2 ^ 52 ≤ q) (hq' : q < 2 ^ 53) : scaleOf ((2 * q + 1) * 2 ^ k) = k + 1 := by
  refine scaleOf_eq ?_ ?_
  · rw [show 52 + (k + 1) = 53 + k by omega, Nat.pow_add]
    exact Nat.mul_le_mul_right _ (by omega)
  · rw [show 53 + (k + 1) = 54 + k by omega, Nat.pow_add]
    exact Nat.mul_lt_mul_of_pos_right (by omega) (Nat.two_pow_pos k)

theorem divideEven_halfway {q k : Nat} (heven : q % 2 = 0) : divideEven ((2 * q + 1) * 2 ^ k) (2 ^ (k + 1)) = q := by
  rw [Nat.pow_succ', divideEven_mul (Nat.two_pow_pos k)]
  unfold divideEven
  dsimp only
  rw [if_neg (by omega), if_pos (by omega)]
  omega

end Magnitude

namespace Number

open Magnitude (one round? ofParts? divideEven scaleOf scaleOf_eq scaleOf_spec round?_shift round?_eq_none_iff)

variable {n w b : Nat}

/-! ## What is cut off -/

theorem Cut.le (h : Cut n w) : n ≤ w := by
  obtain ⟨a, p, t, -, -, -, rfl⟩ := h
  omega

theorem Cut.large (h : Cut n w) : 2 ^ 53 ≤ n := by
  obtain ⟨a, p, t, ha, -, rfl, -⟩ := h
  exact Nat.le_trans ha (Nat.le_mul_of_pos_right _ (Nat.two_pow_pos p))

/-- Cutting a digit more. -/
theorem Cut.digit {d : Nat} (h : Cut n w) (hd : d < 2 ^ b) : Cut (n * 2 ^ b) (w * 2 ^ b + d) := by
  obtain ⟨a, p, t, ha, ht, rfl, rfl⟩ := h
  refine ⟨a, p + b, t * 2 ^ b + d, ha, ?_, by rw [Nat.mul_assoc, ← Nat.pow_add], by rw [Nat.add_mul, Nat.add_assoc]⟩
  calc t * 2 ^ b + d < (t + 1) * 2 ^ b := by rw [Nat.succ_mul]; omega
    _ ≤ 2 ^ p * 2 ^ b := Nat.mul_le_mul_right _ ht
    _ = 2 ^ (p + b) := (Nat.pow_add _ _ _).symm

/-- What is cut off of a number is below the first of its 54 binary digits, so it leaves the scale as it is. -/
theorem Cut.scale (h : Cut n w) : ∃ a p t e : Nat, t < 2 ^ p ∧ n = a * 2 ^ p ∧ w = a * 2 ^ p + t ∧
    scaleOf n = e + 1 + p ∧ scaleOf w = e + 1 + p := by
  obtain ⟨a, p, t, ha, ht, rfl, rfl⟩ := h
  have hpos : 0 < 2 ^ p := Nat.two_pow_pos p
  obtain ⟨hlt, hle⟩ := scaleOf_spec (a * 2 ^ p)
  have hp : p < scaleOf (a * 2 ^ p) := by
    have : 2 ^ (53 + p) < 2 ^ (53 + scaleOf (a * 2 ^ p)) := by
      refine Nat.lt_of_le_of_lt ?_ hlt
      rw [Nat.pow_add]
      exact Nat.mul_le_mul_right _ ha
    have := (Nat.pow_lt_pow_iff_right (by omega)).1 this
    omega
  obtain ⟨e, he⟩ : ∃ e, scaleOf (a * 2 ^ p) = e + 1 + p := ⟨scaleOf (a * 2 ^ p) - p - 1, by omega⟩
  rw [he] at hlt hle
  refine ⟨a, p, t, e, ht, rfl, rfl, he, scaleOf_eq (Nat.le_add_right_of_le (hle (by omega))) ?_⟩
  have ha' : a < 2 ^ (53 + (e + 1)) := Nat.lt_of_mul_lt_mul_right (by rwa [← Nat.pow_add, Nat.add_assoc])
  calc a * 2 ^ p + t < (a + 1) * 2 ^ p := by rw [Nat.succ_mul]; omega
    _ ≤ 2 ^ (53 + (e + 1)) * 2 ^ p := Nat.mul_le_mul_right _ ha'
    _ = 2 ^ (53 + (e + 1 + p)) := by rw [← Nat.pow_add, Nat.add_assoc]

/-- **What is cut off changes nothing**, unless what is left is halfway. -/
theorem Cut.ofNat_eq (h : Cut n w) (hm : ¬ Misheard n w) : ofNat w = ofNat n := by
  unfold ofNat ofFraction
  rw [Magnitude.round?_eq_units w, Magnitude.round?_eq_units n]
  by_cases hlarge : tooLarge ≤ n
  · rw [round?_eq_none_iff.2 (Nat.mul_le_mul_right _ hlarge),
      round?_eq_none_iff.2 (Nat.mul_le_mul_right _ (Nat.le_trans hlarge h.le))]
  have hn : 2 ^ 52 ≤ n := Nat.le_trans (by decide) h.large
  have hw : 2 ^ 52 ≤ w := Nat.le_trans hn h.le
  obtain ⟨o, ho⟩ := Magnitude.exists_one
  have hn' := round?_shift hn o
  have hw' := round?_shift hw o
  rw [← ho] at hn' hw'
  rw [hn', hw']
  obtain ⟨a, p, t, e, ht, rfl, rfl, hs, hs'⟩ := h.scale
  have hstep : 2 ^ (e + 1 + p) = 2 * 2 ^ e * 2 ^ p := by rw [Nat.pow_add, Nat.pow_succ']
  obtain ⟨hlt, hle⟩ := scaleOf_spec (a * 2 ^ p)
  rw [hs, ← Nat.add_assoc, Nat.pow_add _ _ p] at hlt hle
  rw [hs, hs', hstep, Magnitude.divideEven_mul (Nat.two_pow_pos p)]
  rcases Magnitude.divideEven_cut (a := a) (c := 2 ^ e) ht with heq | ⟨hpos, hrest, heven⟩
  · rw [heq]
  · refine absurd ⟨⟨a / (2 * 2 ^ e), e + p, ?_, ?_, heven, ?_⟩, by omega, by omega⟩ hm
    · refine (Nat.le_div_iff_mul_le (by have := Nat.two_pow_pos e; omega)).2 ?_
      rw [← Nat.pow_succ', ← Nat.pow_add]
      exact Nat.le_of_mul_le_mul_right (hle (by omega)) (Nat.two_pow_pos p)
    · refine (Nat.div_lt_iff_lt_mul (by have := Nat.two_pow_pos e; omega)).2 ?_
      rw [← Nat.pow_succ', ← Nat.pow_add]
      exact Nat.lt_of_mul_lt_mul_right hlt
    · have hsplit := Nat.div_add_mod a (2 * 2 ^ e)
      rw [hrest] at hsplit
      rw [Nat.pow_add, ← Nat.mul_assoc, Nat.add_mul _ 1, Nat.one_mul, Nat.mul_right_comm, hsplit]

/-- What is cut off is less than half a step. -/
theorem Cut.lt_step {q k : Nat} (h : Cut n w) (hq : q < 2 ^ 53) (hn : n = (2 * q + 1) * 2 ^ k) : w < n + 2 ^ k := by
  obtain ⟨a, p, t, ha, ht, hap, rfl⟩ := h
  have hpk : 2 ^ (53 + p) < 2 ^ (54 + k) := by
    calc 2 ^ (53 + p) = 2 ^ 53 * 2 ^ p := Nat.pow_add _ _ _
      _ ≤ n := hap ▸ Nat.mul_le_mul_right _ ha
      _ = (2 * q + 1) * 2 ^ k := hn
      _ < 2 ^ 54 * 2 ^ k := Nat.mul_lt_mul_of_pos_right (by omega) (Nat.two_pow_pos k)
      _ = 2 ^ (54 + k) := (Nat.pow_add _ _ _).symm
  have hlt := (Nat.pow_lt_pow_iff_right (by omega)).1 hpk
  have hle : 2 ^ p ≤ 2 ^ k := Nat.pow_le_pow_right (by omega) (by omega)
  omega

/-- **Half a step is rounded down to the even mantissa**, so a number beyond it is nearer to the next one. -/
theorem Cut.not_isNearest (h : Cut n w) (hm : Misheard n w) : ¬ (ofNat n).IsNearest w := by
  obtain ⟨⟨q, k, hq, hq', heven, hn⟩, hlt, hlarge⟩ := hm
  have hbelow := h.lt_step hq' hn
  obtain ⟨o, ho⟩ := Magnitude.exists_one
  have hround : round? (n * one) one = ofParts? q (k + 1 + o) := by
    have hshift := round?_shift (Nat.le_trans (by decide) h.large) o
    rwa [← ho, hn, Magnitude.scaleOf_halfway hq hq', Magnitude.divideEven_halfway heven, ← hn] at hshift
  obtain ⟨x, hx⟩ : ∃ x, round? (n * one) one = some x :=
    Option.ne_none_iff_exists'.1 fun h => absurd ((Nat.mul_le_mul_right_iff Magnitude.one_pos).1 (round?_eq_none_iff.1 h))
      (Nat.not_le.2 hlarge)
  obtain ⟨hm, hs⟩ : x.mantissa = q ∧ x.scale = k + 1 + o := by
    rcases Magnitude.ofParts?_cases (hround ▸ hx) with hp | ⟨h, -⟩
    · exact hp
    · omega
  unfold ofNat ofFraction
  rw [Magnitude.round?_eq_units, hx]
  rintro ⟨-, hclosest, -⟩
  -- The next magnitude is the one on the other side of what is heard.
  have hnext := hclosest ⟨q + 1, x.scale, by omega, x.scale_le, fun _ => Nat.le_succ_of_le hq⟩
  unfold Magnitude.distance Magnitude.units at hnext
  dsimp only at hnext
  have hstep : 2 ^ (k + 1 + o) = 2 * (2 ^ k * one) := by rw [Nat.pow_add, Nat.pow_succ', ho, Nat.mul_assoc]
  have hhalf : n * one = q * (2 * (2 ^ k * one)) + 2 ^ k * one := by rw [hn]; ring
  have habove : n * one < w * one := Nat.mul_lt_mul_of_pos_right hlt Magnitude.one_pos
  have hend : w * one < n * one + 2 ^ k * one := by
    rw [← Nat.add_mul]
    exact Nat.mul_lt_mul_of_pos_right hbelow Magnitude.one_pos
  rw [hm, hs, hstep, Nat.succ_mul q] at hnext
  generalize 2 ^ k * one = half at *
  generalize q * (2 * half) = below at *
  omega

/-! ## Hearing digits -/

/-- **A rounded sum and a digit more is what is heard, rounded.** -/
theorem addDigit_ofNat {d : Nat} (hd : d < 2 ^ b) : Literal.addDigit (2 ^ b) (ofNat n) d = ofNat (hear (2 ^ b) n d) := by
  unfold ofNat ofFraction
  rw [Magnitude.round?_eq_units n, Magnitude.round?_eq_units (hear _ _ _)]
  unfold hear
  split
  · rename_i hn
    obtain ⟨x, hx⟩ := exists_units_eq hn
    rw [← hx, Magnitude.round?_exact Magnitude.one_pos rfl]
    show ofSize false (round? (x.units * 2 ^ b + d * one) one) = _
    rw [hx, Nat.add_mul, Nat.mul_right_comm]
  · rename_i hn
    cases h : round? (n * one) one with
    | some x =>
      show ofSize false (round? (x.units * 2 ^ b + d * one) one) = _
      rw [Magnitude.round?_digit (Nat.not_lt.1 hn) hd h]
    | none =>
      have hlarge : tooLarge * one ≤ n * 2 ^ b * one :=
        Nat.le_trans (round?_eq_none_iff.1 h) (Nat.mul_le_mul_right _ (Nat.le_mul_of_pos_right _ (Nat.two_pow_pos b)))
      rw [round?_eq_none_iff.2 hlarge]
      rfl

theorem foldl_addDigit {ds : List Nat} (hds : ∀ d ∈ ds, d < 2 ^ b) (n : Nat) :
    ds.foldl (Literal.addDigit (2 ^ b)) (ofNat n) = ofNat (ds.foldl (hear (2 ^ b)) n) := by
  induction ds generalizing n with
  | nil => rw [List.foldl_nil, List.foldl_nil]
  | cons d ds ih =>
    obtain ⟨hd, hds⟩ := List.forall_mem_cons.1 hds
    rw [List.foldl_cons, List.foldl_cons, addDigit_ofNat hd, ih hds]

/-- What is heard of a digit is all of it, or less by what is cut off. -/
theorem hear_or_cut {d : Nat} (h : n = w ∨ Cut n w) (hd : d < 2 ^ b) :
    hear (2 ^ b) n d = d + 2 ^ b * w ∨ Cut (hear (2 ^ b) n d) (d + 2 ^ b * w) := by
  rw [Nat.add_comm, Nat.mul_comm]
  unfold hear
  split
  · rename_i hn
    rcases h with rfl | hcut
    · exact .inl rfl
    · exact absurd hcut.large (Nat.not_le.2 hn)
  · rename_i hn
    refine .inr (Cut.digit ?_ hd)
    rcases h with rfl | hcut
    · exact ⟨n, 0, 0, Nat.not_lt.1 hn, Nat.one_pos, (Nat.mul_one n).symm, rfl⟩
    · exact hcut

/-- **What is heard of digits is what they spell, or what is left when its end is cut off.** -/
theorem heard_or_cut {ds : List Nat} (hds : ∀ d ∈ ds, d < 2 ^ b) :
    heard (2 ^ b) ds = Nat.ofDigits (2 ^ b) ds.reverse ∨ Cut (heard (2 ^ b) ds) (Nat.ofDigits (2 ^ b) ds.reverse) := by
  rw [Nat.ofDigits_eq_foldr, List.foldr_reverse]
  unfold heard
  suffices hall : ∀ n w : Nat, n = w ∨ Cut n w →
      ds.foldl (hear (2 ^ b)) n = ds.foldl (fun w d => d + 2 ^ b * w) w ∨
        Cut (ds.foldl (hear (2 ^ b)) n) (ds.foldl (fun w d => d + 2 ^ b * w) w) from hall 0 0 (.inl rfl)
  induction ds with
  | nil => exact fun n w h => h
  | cons d ds ih =>
    obtain ⟨hd, hds⟩ := List.forall_mem_cons.1 hds
    exact fun n w h => ih hds _ _ (hear_or_cut h hd)

/-- **The number nearest to what is heard is the one nearest to what is spelled**, unless it was misheard. -/
theorem isNearest_iff_not_misheard {ds : List Nat} (hds : ∀ d ∈ ds, d < 2 ^ b) :
    (ofNat (heard (2 ^ b) ds)).IsNearest (Nat.ofDigits (2 ^ b) ds.reverse) ↔
      ¬ Misheard (heard (2 ^ b) ds) (Nat.ofDigits (2 ^ b) ds.reverse) := by
  rcases heard_or_cut hds with h | h
  · rw [h]
    exact iff_of_true (isNearest_ofNat _) fun hm => absurd hm.2.1 (Nat.lt_irrefl _)
  · refine ⟨fun hn hm => h.not_isNearest hm hn, fun hm => ?_⟩
    rw [← h.ofNat_eq hm]
    exact isNearest_ofNat _

namespace Literal

open Token (IsDigitOf)

/-- The letters that announce a radix, and the power of two that each of them announces. -/
def radixLetters : List (Char × Nat) := [('x', 4), ('X', 4), ('o', 3), ('O', 3), ('b', 1), ('B', 1)]

variable {letter c : Char} {base v : Nat} {vs : List Nat} {cs body : List Char}

theorem digitValue?_of_isDigitOf (hb : base ≤ 16) (h : IsDigitOf base v c) : digitValue? base c = some v := by
  have hall : ∀ v < 16, digitValue? 16 (Text.hexDigit v) = some v ∧ digitValue? 16 (Text.hexDigit v).toUpper = some v := by
    decide
  obtain ⟨hv, hc⟩ := h
  have h16 : digitValue? 16 c = some v := by
    rcases hc with rfl | rfl
    · exact (hall v (by omega)).1
    · exact (hall v (by omega)).2
  unfold digitValue? at h16 ⊢
  rw [Option.filter_eq_some_iff] at h16 ⊢
  exact ⟨h16.1, decide_eq_true hv⟩

theorem mapM_digitValue? (hb : base ≤ 16) (h : List.Forall₂ (IsDigitOf base) vs cs) :
    cs.mapM (digitValue? base) = some vs ∧ ∀ v ∈ vs, v < base := by
  induction h with
  | nil => exact ⟨rfl, nofun⟩
  | cons hd _ ih =>
    refine ⟨?_, List.forall_mem_cons.2 ⟨hd.1, ih.2⟩⟩
    rw [List.mapM_cons, digitValue?_of_isDigitOf hb hd, ih.1]
    rfl

theorem ofNat_zero : ofNat 0 = .zero := by
  unfold ofNat ofFraction
  rw [Magnitude.round?_exact (x := .zero) Nat.one_pos (by rw [Magnitude.units_zero, Nat.zero_mul, Nat.zero_mul])]
  rfl

/-- A radix literal is the number of what is heard of its digits. -/
theorem read?_eq_ofNat (hletter : (letter, b) ∈ radixLetters)
    (hbody : List.Forall₂ (IsDigitOf (2 ^ b)) vs (body.filter (· != '_'))) (hsome : vs ≠ []) :
    read? ('0' :: letter :: body) = some (ofNat (heard (2 ^ b) vs)) := by
  have hne : body.filter (· != '_') ≠ [] := fun h => hsome (by rw [h] at hbody; exact List.forall₂_nil_right_iff.1 hbody)
  have hb : 2 ^ b ≤ 16 ∧ letter ≠ '_' ∧ ∀ cs, radix? ('0' :: letter :: cs) = some (2 ^ b, cs) := by
    fin_cases hletter <;> exact ⟨by decide, by decide, fun cs => rfl⟩
  obtain ⟨hb, hl, hradix⟩ := hb
  have hfilter : ('0' :: letter :: body).filter (· != '_') = '0' :: letter :: body.filter (· != '_') := by
    rw [List.filter_cons_of_pos (by decide), List.filter_cons_of_pos (by simpa using hl)]
  obtain ⟨hvalues, hds⟩ := mapM_digitValue? hb hbody
  unfold read?
  dsimp only
  rw [hfilter, hradix]
  show radixDigits? _ _ = _
  unfold radixDigits?
  rw [if_neg hne, hvalues, heard, ← foldl_addDigit hds, ofNat_zero]
  rfl

/-- **A radix literal denotes the number nearest to what is heard of its digits.**  That is the number nearest to what they
spell, unless what is heard of them is halfway between two numbers, the lower one even, and is not all that they spell. -/
theorem read?_radix (hletter : (letter, b) ∈ radixLetters)
    (hbody : List.Forall₂ (IsDigitOf (2 ^ b)) vs (body.filter (· != '_'))) (hsome : vs ≠ []) :
    ∃ x, read? ('0' :: letter :: body) = some x ∧ x.IsNearest (heard (2 ^ b) vs) ∧
      (x.IsNearest (Nat.ofDigits (2 ^ b) vs.reverse) ↔
        ¬ Misheard (heard (2 ^ b) vs) (Nat.ofDigits (2 ^ b) vs.reverse)) := by
  have hb : 2 ^ b ≤ 16 := by
    fin_cases hletter <;> decide
  exact ⟨_, read?_eq_ofNat hletter hbody hsome, isNearest_ofNat _, isNearest_iff_not_misheard (mapM_digitValue? hb hbody).2⟩

theorem read?_radix_hexadecimal : ∃ x, read? "0XfF_0".toList = some x ∧ x.IsNearest 4080 ∧
    (x.IsNearest 4080 ↔ ¬ Misheard 4080 4080) :=
  @read?_radix 4 'X' [15, 15, 0] "fF_0".toList (by decide) (by unfold IsDigitOf; decide) (by decide)

/-- The literal is read as 2^60, and 2^60 + 256 is nearer to what it spells. -/
theorem read?_not_nearest : ¬ ∃ x, read? "0x1000000000000081".toList = some x ∧ x.IsNearest 0x1000000000000081 := by
  obtain ⟨ds, hds⟩ : ∃ ds : List Nat, ds = [1, 0, 0, 0, 0, 0, 0, 0, 0, 0, 0, 0, 0, 0, 8, 1] := ⟨_, rfl⟩
  have hheard : heard (2 ^ 4) ds = (2 * 2 ^ 52 + 1) * 2 ^ 7 := by rw [hds]; decide
  have hspelled : Nat.ofDigits (2 ^ 4) ds.reverse = 0x1000000000000081 := by rw [hds]; decide
  have hmisheard : Misheard ((2 * 2 ^ 52 + 1) * 2 ^ 7) 0x1000000000000081 :=
    ⟨⟨2 ^ 52, 7, by decide, by decide, by decide, rfl⟩, by decide, by decide +kernel⟩
  have hread := @read?_eq_ofNat 4 'x' ds "1000000000000081".toList (by decide) (by rw [hds]; unfold IsDigitOf; decide)
    (by rw [hds]; decide)
  have hiff := @isNearest_iff_not_misheard 4 ds (by rw [hds]; decide)
  rw [hheard, hspelled] at hiff
  rw [hheard] at hread
  rintro ⟨x, hx, hnearest⟩
  rw [Option.some.inj (hx.symm.trans hread), hiff] at hnearest
  exact hnearest hmisheard

end Literal

end Number

end Readback
