import Mathlib.Data.List.TakeWhile
import Readback.Number.Literal
import Readback.Number.Text
import Readback.Proofs.Number.Value
/-!
# Number text reads back

A number is written as digits, perhaps with a point and more digits, and perhaps with a power of ten.  Written so, it denotes
the decimal that it was written for, or one that is equal to it, and so the same number.
-/
namespace Readback.Number

open Text (digits zeros isDigit valueOf)

def powerText : Option Int → List Char
  | none   => []
  | some p => 'e' :: (if p < 0 then '-' else '+') :: digits p.natAbs

/-- Digits, more digits behind a point if there are any, and a power of ten if there is one. -/
def spelling (whole part : List Char) (power : Option Int) : List Char :=
  whole ++ ((if part = [] then [] else '.' :: part) ++ powerText power)

/-- The decimal that such a text spells. -/
def spelled (whole part : List Char) (power : Option Int) : Decimal :=
  ⟨valueOf (whole ++ part), power.getD 0 - part.length⟩

variable {whole part : List Char} {power : Option Int}

theorem isDigit_of_mem_zeros {n : Nat} {c : Char} (h : c ∈ zeros n) : isDigit c = true := by
  rw [List.eq_of_mem_replicate h]
  decide

theorem digits_ne_nil (n : Nat) : digits n ≠ [] := by
  rw [← List.length_pos_iff, Text.length_digits]
  exact Text.digitCount_pos n

/-! ## Reading -/

theorem takeWhile_digits {ds rest : List Char} (hd : ∀ c ∈ ds, isDigit c = true)
    (hr : ∀ c, rest.head? = some c → isDigit c = false) : (ds ++ rest).takeWhile isDigit = ds := by
  rw [List.takeWhile_append_of_pos hd, List.append_right_eq_self]
  cases rest with
  | nil => rfl
  | cons c rest => rw [List.takeWhile_cons_of_neg (by simp [hr c rfl])]

theorem dropWhile_digits {ds rest : List Char} (hd : ∀ c ∈ ds, isDigit c = true)
    (hr : ∀ c, rest.head? = some c → isDigit c = false) : (ds ++ rest).dropWhile isDigit = rest := by
  rw [List.dropWhile_append_of_pos hd]
  cases rest with
  | nil => rfl
  | cons c rest => rw [List.dropWhile_cons_of_neg (by simp [hr c rfl])]

theorem exponent?_power (power : Option Int) : Literal.exponent? (powerText power) = some (power.getD 0) := by
  cases power with
  | none => rfl
  | some p =>
    have hd : Literal.exponent?.digits? (digits p.natAbs) = some p.natAbs := by
      unfold Literal.exponent?.digits?
      rw [if_pos ⟨digits_ne_nil _, List.all_eq_true.2 fun c => Text.isDigit_of_mem_digits⟩, Text.valueOf_digits]
    by_cases hp : p < 0
    · have hn : (-(p.natAbs : Int)) = p := by omega
      rw [powerText, if_pos hp]
      simp only [Literal.exponent?, Literal.exponent?.signedDigits?, hd]
      exact congrArg some hn
    · have hn : (p.natAbs : Int) = p := by omega
      rw [powerText, if_neg hp]
      simp only [Literal.exponent?, Literal.exponent?.signedDigits?, hd]
      exact congrArg some hn

/-- What stands behind the digits of a spelling is no digit and no point. -/
theorem head?_powerText (power : Option Int) :
    ∀ c, (powerText power).head? = some c → isDigit c = false ∧ c ≠ '.' := by
  cases power with
  | none => nofun
  | some p =>
    rintro c ⟨⟩
    decide

theorem decimal?_spelling (hw : whole ≠ []) (hd : ∀ c ∈ whole ++ part, isDigit c = true) :
    Literal.decimal? (spelling whole part power) = some (spelled whole part power) := by
  obtain ⟨hdw, hdp⟩ : (∀ c ∈ whole, isDigit c = true) ∧ ∀ c ∈ part, isDigit c = true :=
    ⟨fun c hc => hd c (List.mem_append_left _ hc), fun c hc => hd c (List.mem_append_right _ hc)⟩
  have hne : whole ++ part ≠ [] := fun h => hw (List.append_eq_nil_iff.1 h).1
  have hp := fun c hc => (head?_powerText power c hc).1
  have he := exponent?_power power
  unfold spelling Literal.decimal?
  by_cases hpart : part = []
  · subst hpart
    have hf : Literal.fraction (powerText power) = ([], powerText power) := by
      unfold Literal.fraction
      split
      · rename_i h
        exact absurd rfl (head?_powerText power '.' (by rw [h]; rfl)).2
      · rfl
    rw [if_pos rfl, List.nil_append, takeWhile_digits hdw hp, dropWhile_digits hdw hp, hf]
    dsimp only
    rw [List.append_nil, if_neg hw, he]
    simp [spelled]
  · have hdot : ∀ c, ('.' :: (part ++ powerText power)).head? = some c → isDigit c = false := by
      rintro c ⟨⟩
      decide
    have hf : Literal.fraction ('.' :: (part ++ powerText power)) = (part, powerText power) := by
      show ((part ++ powerText power).takeWhile isDigit, (part ++ powerText power).dropWhile isDigit) = _
      rw [takeWhile_digits hdp hp, dropWhile_digits hdp hp]
    rw [if_neg hpart, List.cons_append, takeWhile_digits hdw hdot, dropWhile_digits hdw hdot, hf]
    dsimp only
    rw [if_neg hne, he]
    rfl

/-- The characters of a spelling. -/
theorem mem_spelling {c : Char} (hd : ∀ c ∈ whole ++ part, isDigit c = true) (hc : c ∈ spelling whole part power) :
    isDigit c = true ∨ c = '.' ∨ c = 'e' ∨ c = '-' ∨ c = '+' := by
  unfold spelling at hc
  simp only [List.mem_append] at hc hd
  rcases hc with hc | hc | hc
  · exact .inl (hd c (.inl hc))
  · split at hc
    · cases hc
    · rcases List.mem_cons.1 hc with rfl | hc
      · exact .inr (.inl rfl)
      · exact .inl (hd c (.inr hc))
  · cases power with
    | none => cases hc
    | some p =>
      rw [powerText, List.mem_cons, List.mem_cons] at hc
      rcases hc with rfl | rfl | hc
      · exact .inr (.inr (.inl rfl))
      · split
        · exact .inr (.inr (.inr (.inl rfl)))
        · exact .inr (.inr (.inr (.inr rfl)))
      · exact .inl (Text.isDigit_of_mem_digits hc)

/-- **A spelling is read as the decimal that it spells.** -/
theorem read?_spelling (hw : whole ≠ []) (hd : ∀ c ∈ whole ++ part, isDigit c = true) :
    Literal.read? (spelling whole part power) = some (.ofSize false (spelled whole part power).round?) := by
  have hfilter : (spelling whole part power).filter (· != '_') = spelling whole part power := by
    rw [List.filter_eq_self]
    intro c hc
    rcases mem_spelling hd hc with hc | rfl | rfl | rfl | rfl
    · rw [bne_iff_ne]
      rintro rfl
      cases hc
    all_goals rfl
  have hradix : Literal.radix? (spelling whole part power) = none := by
    have hmem := @mem_spelling whole part power
    generalize spelling whole part power = cs at hmem
    unfold Literal.radix?
    split
    · rename_i c r
      have hc := hmem hd (List.mem_cons_of_mem _ List.mem_cons_self)
      have hx : c ≠ 'x' ∧ c ≠ 'X' ∧ c ≠ 'o' ∧ c ≠ 'O' ∧ c ≠ 'b' ∧ c ≠ 'B' := by
        refine ⟨?_, ?_, ?_, ?_, ?_, ?_⟩ <;> rintro rfl <;> revert hc <;> decide
      rw [if_neg (by simp [hx]), if_neg (by simp [hx]), if_neg (by simp [hx])]
    · rfl
  unfold Literal.read?
  dsimp only
  rw [hfilter, hradix]
  dsimp only
  rw [decimal?_spelling hw hd]
  rfl

/-! ## Writing -/

theorem valueOf_append_zeros (cs : List Char) (n : Nat) : valueOf (cs ++ zeros n) = valueOf cs * 10 ^ n := by
  induction n with
  | zero => simp [zeros]
  | succ n ih =>
    rw [zeros, List.replicate_succ', ← List.append_assoc, Text.valueOf_append_singleton, ← zeros, ih, Nat.pow_succ,
      show Text.digitValue '0' = 0 from rfl, Nat.add_zero, Nat.mul_assoc]

theorem valueOf_zeros_append (n : Nat) (cs : List Char) : valueOf (zeros n ++ cs) = valueOf cs := by
  induction n with
  | zero => rfl
  | succ n ih => exact ih

/-- The text is a spelling of a decimal of the same number. -/
structure Spells (d : Decimal) (cs whole part : List Char) (power : Option Int) : Prop where
  text   : cs = spelling whole part power
  some   : whole ≠ []
  digits : ∀ c ∈ whole ++ part, isDigit c = true
  value  : (spelled whole part power).value = d.value

/-- The digits of a decimal, and where its point is among them. -/
structure HasDigits (d : Decimal) (ds : List Char) : Prop where
  some   : ds ≠ []
  digits : ∀ c ∈ ds, isDigit c = true
  value  : valueOf ds = d.digits
  point  : d.point = ds.length + d.exponent

variable {d : Decimal} {cs ds : List Char}

theorem hasDigits (d : Decimal) : HasDigits d (digits d.digits) where
  some := digits_ne_nil _
  digits _ := Text.isDigit_of_mem_digits
  value := Text.valueOf_digits _
  point := by rw [Text.length_digits]; rfl

/-- The point in front of the digits, with zeros in between. -/
theorem HasDigits.spells_front (h : HasDigits d ds) (hp : d.point ≤ 0) :
    Spells d ('0' :: '.' :: (zeros (-d.point).toNat ++ ds)) ['0'] (zeros (-d.point).toNat ++ ds) none where
  text := by
    rw [spelling, if_neg fun hn => h.some (List.append_eq_nil_iff.1 hn).2]
    simp [powerText]
  some := nofun
  digits := by
    intro c hc
    simp only [List.mem_append, List.mem_singleton] at hc
    rcases hc with rfl | hc | hc
    · decide
    · exact isDigit_of_mem_zeros hc
    · exact h.digits c hc
  value := by
    have hv : valueOf (['0'] ++ (zeros (-d.point).toNat ++ ds)) = d.digits := by
      rw [show (['0'] : List Char) = zeros 1 from rfl, valueOf_zeros_append, valueOf_zeros_append, h.value]
    have he : ((none : Option Int).getD 0 : Int) - (zeros (-d.point).toNat ++ ds).length = d.exponent := by
      have := h.point
      rw [List.length_append, zeros, List.length_replicate, Option.getD_none]
      omega
    rw [spelled, hv, he]

/-- The point behind the digits, with zeros in between that are the power. -/
theorem HasDigits.spells_behind (h : HasDigits d ds) (hp : ¬ d.point ≤ 0) (hn : ds.length ≤ d.point.toNat) :
    Spells d (ds ++ zeros (d.point.toNat - ds.length)) (ds ++ zeros (d.point.toNat - ds.length)) [] none where
  text := by simp [spelling, powerText]
  some hn := h.some (List.append_eq_nil_iff.1 hn).1
  digits := by
    intro c hc
    simp only [List.mem_append, List.not_mem_nil, or_false] at hc
    rcases hc with hc | hc
    · exact h.digits c hc
    · exact isDigit_of_mem_zeros hc
  value := by
    have he : (0 : Int) + (d.point.toNat - ds.length : Nat) = d.exponent := by
      have := h.point
      omega
    rw [spelled, List.append_nil, valueOf_append_zeros, h.value]
    exact (Decimal.value_zeros _ _ 0).trans (by rw [he])

/-- The point among the digits. -/
theorem HasDigits.spells_inside (h : HasDigits d ds) (hp : ¬ d.point ≤ 0) (hn : ¬ ds.length ≤ d.point.toNat) :
    Spells d (ds.take d.point.toNat ++ '.' :: ds.drop d.point.toNat) (ds.take d.point.toNat) (ds.drop d.point.toNat)
      none where
  text := by rw [spelling, if_neg (by rw [List.drop_eq_nil_iff]; omega), powerText, List.append_nil]
  some := by
    rw [← List.length_pos_iff, List.length_take]
    omega
  digits := by
    rw [List.take_append_drop]
    exact h.digits
  value := by
    have he : ((none : Option Int).getD 0 : Int) - (ds.drop d.point.toNat).length = d.exponent := by
      have := h.point
      rw [List.length_drop, Option.getD_none]
      omega
    rw [spelled, List.take_append_drop, h.value, he]

theorem spells_positional (h : HasDigits d ds) : ∃ whole part, Spells d (positional ds d.point) whole part none := by
  unfold positional
  split
  · exact ⟨_, _, h.spells_front ‹_›⟩
  · split
    · exact ⟨_, _, h.spells_behind ‹_› ‹_›⟩
    · exact ⟨_, _, h.spells_inside ‹_› ‹_›⟩

theorem spells_scientific (h : HasDigits d ds) :
    ∃ whole part, Spells d (scientific ds d.point) whole part (some (d.point - 1)) := by
  rcases ds with _ | ⟨c, ds⟩
  · exact absurd rfl h.some
  refine ⟨[c], ds, ?_, nofun, h.digits, ?_⟩
  · cases ds <;> rfl
  · have he : ((some (d.point - 1)).getD 0 : Int) - ds.length = d.exponent := by
      have := h.point
      rw [List.length_cons] at this
      rw [Option.getD_some]
      omega
    rw [spelled, List.singleton_append, h.value, he]

/-- **The layout of a decimal spells it.** -/
theorem spells_layout (d : Decimal) : ∃ whole part power, Spells d (layout d) whole part power := by
  unfold layout
  split
  · obtain ⟨whole, part, hs⟩ := spells_positional (hasDigits d)
    exact ⟨whole, part, none, hs⟩
  · obtain ⟨whole, part, hs⟩ := spells_scientific (hasDigits d)
    exact ⟨whole, part, _, hs⟩

/-- What spells a decimal is read as its magnitude. -/
theorem Spells.read? (h : Spells d cs whole part power) : Literal.read? cs = .some (.ofSize false d.round?) := by
  rw [h.text, read?_spelling h.some h.digits, Decimal.round?_congr h.value]

/-- **The text of a magnitude is a spelling that is read as it.** -/
theorem spells_sizeText (x : Magnitude) :
    ∃ whole part power, sizeText x = spelling whole part power ∧ whole ≠ [] ∧ (∀ c ∈ whole ++ part, isDigit c = true) ∧
      Literal.read? (sizeText x) = some (.finite false x) := by
  unfold sizeText
  by_cases hx : x = .zero
  · rw [if_pos hx, hx]
    refine ⟨['0'], [], none, rfl, nofun, fun c hc => ?_, rfl⟩
    obtain rfl : c = '0' := List.mem_singleton.1 hc
    rfl
  · rw [if_neg hx]
    obtain ⟨whole, part, power, hs⟩ := spells_layout x.shortest
    refine ⟨whole, part, power, hs.text, hs.some, hs.digits, ?_⟩
    rw [hs.read?, Magnitude.round?_shortest hx]
    rfl

end Readback.Number
