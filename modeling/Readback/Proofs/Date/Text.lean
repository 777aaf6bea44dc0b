import Mathlib.Data.List.Basic
import Mathlib.Data.List.TakeDrop
import Readback.Date.Reader
import Readback.Proofs.Date.Calendar
import Readback.Proofs.Number.Spelling
/-!
# Dates that are written

The text of a date is read as the number of milliseconds that it was written for (`read?_millisText`): as a timestamp when
its year has four digits, with a signed year otherwise.  So what is read of any text can be written and read again
(`read_text`), and what is written of a date is written of what is read of it (`text?_timeOf`).
-/
namespace Readback

namespace Date

open Text (isDigit valueOf padded zeros digits)

variable {w n : Nat} {cs rest : List Char} {c : Char}

/-! ## Digits of a fixed width -/

theorem digitCount_le (h : n < 10 ^ w) (hw : 0 < w) : Text.digitCount n ≤ w := by
  induction w generalizing n with
  | zero => omega
  | succ w ih =>
    rw [Text.digitCount]
    split
    · omega
    · have hw : 0 < w := Nat.pos_of_ne_zero fun hw => by subst hw; omega
      have := @ih (n / 10) (by rw [Nat.pow_succ] at h; omega) hw
      omega

theorem length_padded (hw : 0 < w) (h : n < 10 ^ w) : (padded w n).length = w := by
  have := digitCount_le h hw
  unfold padded
  rw [List.length_append, zeros, List.length_replicate, Text.length_digits]
  omega

theorem isDigit_of_mem_padded (h : c ∈ padded w n) : isDigit c = true := by
  rcases List.mem_append.1 h with h | h
  · exact Number.isDigit_of_mem_zeros h
  · exact Text.isDigit_of_mem_digits h

theorem valueOf_padded (w n : Nat) : valueOf (padded w n) = n := by
  rw [padded, Number.valueOf_zeros_append, Text.valueOf_digits]

/-- **Digits of a fixed width are read.** -/
theorem digits?_padded (hw : 0 < w) (h : n < 10 ^ w) (rest : List Char) :
    digits? w (padded w n ++ rest) = some (n, rest) := by
  have hl := length_padded hw h
  have ht : (padded w n ++ rest).take w = padded w n := by
    rw [List.take_append_of_le_length (by omega), List.take_of_length_le (by omega)]
  have hd : (padded w n ++ rest).drop w = rest := by
    rw [List.drop_append_of_le_length (by omega), List.drop_of_length_le (by omega), List.nil_append]
  unfold digits?
  dsimp only
  rw [ht, hd, if_pos ⟨hl, List.all_eq_true.2 fun c => isDigit_of_mem_padded⟩, valueOf_padded]

theorem after?_cons (c : Char) (cs : List Char) : after? c (c :: cs) = some cs := if_pos rfl

theorem pair?_padded (h : n < 100) : pair? (padded 2 n) = some n := by
  have hl : (padded 2 n).length = 2 := length_padded (by decide) h
  have hv := valueOf_padded 2 n
  obtain ⟨c, d, hcd⟩ := List.length_eq_two.1 hl
  have hc : isDigit c = true := isDigit_of_mem_padded (w := 2) (n := n) (hcd ▸ List.mem_cons_self)
  have hd : isDigit d = true := isDigit_of_mem_padded (w := 2) (n := n) (hcd ▸ List.mem_cons_of_mem _ List.mem_cons_self)
  rw [hcd] at hv ⊢
  unfold pair?
  split
  · rename_i he
    cases he
    cases hc
  · rename_i he
    cases he
    rw [if_pos ⟨hc, hd⟩, hv]
  · rename_i hn
    exact absurd rfl (hn c d)

theorem cut?_append (hcs : ∀ d ∈ cs, d ≠ c) (rest : List Char) : cut? c (cs ++ c :: rest) = some (cs, rest) := by
  have hs : (cs ++ c :: rest).span (· != c) = (cs, c :: rest) := by
    rw [List.span_eq_takeWhile_dropWhile, List.takeWhile_append_of_pos (by simpa using hcs),
      List.dropWhile_append_of_pos (by simpa using hcs), List.takeWhile_cons_of_neg (by simp),
      List.dropWhile_cons_of_neg (by simp), List.append_nil]
  unfold cut?
  rw [hs]

theorem ne_of_mem_padded (hc : isDigit c = false) : ∀ d ∈ padded w n, d ≠ c := by
  rintro d hd rfl
  rw [isDigit_of_mem_padded hd] at hc
  cases hc

/-! ## The time of day -/

/-- The time of day that lies so many milliseconds after midnight. -/
def clockOf (millis : Nat) : Clock :=
  ⟨millis / 3600000, millis / 60000 % 60, millis / 1000 % 60, millis % 1000 * 1000000⟩

theorem real_clockOf {millis : Nat} (h : millis < 86400000) : (clockOf millis).Real := by
  unfold Clock.Real clockOf
  dsimp only
  omega

theorem nanos_clockOf (millis : Nat) : (clockOf millis).nanos = millis * 1000000 := by
  unfold Clock.nanos clockOf
  dsimp only
  omega

theorem hms?_clockText {millis : Nat} (h : millis < 86400000) (rest : List Char) :
    hms? (clockText millis ++ rest) =
      some (millis / 3600000, millis / 60000 % 60, millis / 1000 % 60, '.' :: padded 3 (millis % 1000) ++ rest) := by
  unfold hms? clockText
  simp only [List.append_assoc, List.cons_append, bind, Option.bind, pure]
  simp only [digits?_padded (w := 2) (by decide) (show millis / 3600000 < 10 ^ 2 by omega), after?_cons,
    digits?_padded (w := 2) (by decide) (show millis / 60000 % 60 < 10 ^ 2 by omega),
    digits?_padded (w := 2) (by decide) (show millis / 1000 % 60 < 10 ^ 2 by omega)]

theorem fraction?_padded {millis : Nat} (h : millis < 1000) :
    fraction? ('.' :: padded 3 millis ++ ['Z']) = some (millis * 1000000, ['Z']) := by
  have hl : (padded 3 millis).length = 3 := length_padded (by decide) h
  have hz : ∀ c, ['Z'].head? = some c → isDigit c = false := by
    rintro c ⟨⟩
    decide
  have hne : padded 3 millis ≠ [] := fun he => by rw [he] at hl; cases hl
  have hpow : 10 ^ (9 - 3) = 1000000 := rfl
  show (if ((padded 3 millis ++ ['Z']).takeWhile isDigit) = [] then none
    else some (nanosOf ((padded 3 millis ++ ['Z']).takeWhile isDigit), (padded 3 millis ++ ['Z']).dropWhile isDigit)) = _
  rw [Number.takeWhile_digits (fun c => isDigit_of_mem_padded) hz, Number.dropWhile_digits (fun c => isDigit_of_mem_padded) hz,
    if_neg hne, nanosOf, List.take_of_length_le (by omega), valueOf_padded, hl, hpow]

/-! ## Both forms -/

section

variable {d : Day} {millis : Nat}

/-- The text of a day and a time of the day. -/
def instantText (d : Day) (millis : Nat) : List Char := dayText d ++ 'T' :: clockText millis ++ ['Z']

theorem month_lt_of_real (hd : d.Real) : d.month < 10 ^ 2 ∧ d.day < 10 ^ 2 := by
  obtain ⟨-, h₁, -, h₂⟩ := hd
  have : Day.monthLength d.year d.month ≤ 31 := by
    unfold Day.monthLength
    split <;> split <;> omega
  omega

/-- A year of four digits is read in a timestamp. -/
theorem timestamp?_instantText (hd : d.Real) (hy : 0 ≤ d.year ∧ d.year ≤ 9999) (hm : millis < 86400000) :
    timestamp? (instantText d millis) = some (instantOf d (clockOf millis)) := by
  obtain ⟨h₁, h₂⟩ := month_lt_of_real hd
  have hyear : (d.year.toNat : Int) = d.year := Int.toNat_of_nonneg hy.1
  have hday : (⟨(d.year.toNat : Int), d.month, d.day⟩ : Day) = d := by rw [hyear]
  have hsecond : ¬ millis / 1000 % 60 = 60 := by omega
  unfold timestamp? instantText dayText yearText
  rw [if_pos hy]
  simp only [List.append_assoc, List.cons_append, bind, Option.bind]
  rw [digits?_padded (by decide) (by omega)]
  simp only [after?_cons]
  rw [digits?_padded (by decide) h₁]
  simp only [after?_cons]
  rw [digits?_padded (by decide) h₂]
  simp only [separator?, show ('T').utf8Size = 1 from rfl, if_true]
  rw [hms?_clockText hm]
  simp only [fraction?_padded (Nat.mod_lt millis (show 1000 > 0 by decide)), offset?, hday, if_neg hsecond]
  rw [if_pos ⟨hd, real_clockOf hm, fun hs => absurd hs hsecond⟩, Int.zero_mul, Int.sub_zero]
  rfl

/-- Any other year is no year of a timestamp. -/
theorem timestamp?_signed (hy : ¬ (0 ≤ d.year ∧ d.year ≤ 9999)) : timestamp? (instantText d millis) = none := by
  have hdigits : ∀ cs c, isDigit c = false → digits? 4 (c :: cs) = none := by
    intro cs c hc
    unfold digits?
    dsimp only
    rw [if_neg]
    rintro ⟨-, hall⟩
    rw [List.take_succ_cons, List.all_cons, hc] at hall
    cases hall
  unfold timestamp? instantText dayText yearText
  rw [if_neg hy]
  simp only [List.cons_append]
  rw [hdigits _ _ (by split <;> decide)]
  rfl

/-- A signed year is read with its six digits. -/
theorem longYear?_instantText (hd : d.Real) (hy : ¬ (0 ≤ d.year ∧ d.year ≤ 9999)) (hb : d.year.natAbs < 10 ^ 6)
    (hm : millis < 86400000) : longYear? (instantText d millis) = some (instantOf d (clockOf millis)) := by
  obtain ⟨h₁, h₂⟩ := month_lt_of_real hd
  have hsigned : ∀ rest, signedYear? ((if d.year < 0 then '-' else '+') :: padded 6 d.year.natAbs ++ rest) =
      some (d.year, rest) := by
    intro rest
    rw [List.cons_append]
    split
    · simp only [signedYear?, digits?_padded (w := 6) (by decide) hb, Option.map_some]
      congr 2
      omega
    · simp only [signedYear?, digits?_padded (w := 6) (by decide) hb, Option.map_some]
      congr 2
      omega
  have hdate : ∀ c ∈ padded 2 d.month ++ '-' :: padded 2 d.day, c ≠ 'T' := by
    intro c hc
    rcases List.mem_append.1 hc with hc | hc
    · exact ne_of_mem_padded (by decide) c hc
    · rcases List.mem_cons.1 hc with rfl | hc
      · decide
      · exact ne_of_mem_padded (by decide) c hc
  unfold longYear? instantText dayText yearText
  rw [if_neg hy]
  simp only [List.append_assoc, bind, Option.bind]
  rw [hsigned]
  simp only [List.cons_append, after?_cons]
  rw [← List.cons_append, ← List.append_assoc, cut?_append hdate]
  simp only []
  rw [cut?_append (ne_of_mem_padded (by decide))]
  simp only [pair?_padded h₁, pair?_padded h₂]
  rw [hms?_clockText hm]
  simp only [List.cons_append, after?_cons]
  rw [digits?_padded (by decide) (show millis % 1000 < 10 ^ 3 from Nat.mod_lt millis (by decide))]
  simp only [true_and]
  rw [if_pos ⟨hd, real_clockOf hm⟩]
  rfl

end

/-! ## Dates -/

/-- **The text of a date is read as the date.** -/
theorem read?_millisText {m : Int} (h : m.natAbs ≤ maxMillis) : read? (String.ofList (millisText m)) = some m := by
  have hmax : maxMillis = 8640000000000000 := rfl
  have hm : (m % 86400000).toNat < 86400000 := by omega
  have hd := Day.real_ofNumber (m / 86400000)
  have hb := @Day.year_ofNumber_bound (m / 86400000) (by omega)
  have hinstant : instantOf (Day.ofNumber (m / 86400000)) (clockOf (m % 86400000).toNat) = m * 1000000 := by
    have hnanos : (dayNanos : Int) = 86400000000000 := rfl
    unfold instantOf
    rw [Day.number_ofNumber, nanos_clockOf, hnanos]
    omega
  have hread : (timestamp? (millisText m)).or (longYear? (millisText m)) = some (m * 1000000) := by
    show (timestamp? (instantText _ _)).or (longYear? (instantText _ _)) = _
    by_cases hy : 0 ≤ (Day.ofNumber (m / 86400000)).year ∧ (Day.ofNumber (m / 86400000)).year ≤ 9999
    · rw [timestamp?_instantText hd hy hm, Option.some_or, hinstant]
    · rw [timestamp?_signed hy, Option.none_or, longYear?_instantText hd hy hb hm, hinstant]
  unfold read?
  rw [String.toList_ofList, hread]
  simp only [Option.map_some, Int.mul_tdiv_cancel _ (show (1000000 : Int) ≠ 0 by decide), Option.filter_some, h,
    decide_true, if_true]

theorem natAbs_le_of_read? {text : String} {t : Int} (h : read? text = some t) : t.natAbs ≤ maxMillis := by
  simpa using (Option.filter_eq_some_iff.1 h).2

theorem millis?_ofInt {t : Int} (h : t.natAbs ≤ maxMillis) : millis? (Number.ofInt t) = some t := by
  have hmax : maxMillis = 8640000000000000 := rfl
  rw [millis?, Number.whole?_ofInt (by omega), Option.filter_some]
  simp [h]

/-- **Dates and their texts.**  A number in range has a text, which is read as the number cut toward zero.  What any text is
read as is a whole number in range, a number as it is; and written it is read as before. -/
theorem read_text :
    (∀ (negative : Bool) (size : Magnitude), size.units ≤ maxMillis * Magnitude.one →
      ∃ text, text? (.finite negative size) = some text ∧
        read? text = some ((if negative then -(size.units : Int) else size.units).tdiv Magnitude.one)) ∧
    ∀ (text : String) (t : Int), read? text = some t →
      t.natAbs ≤ maxMillis ∧
      (∃ size : Magnitude, size.units = t.natAbs * Magnitude.one ∧ Number.ofInt t = .finite (decide (t < 0)) size) ∧
      ∃ written, text? (Number.ofInt t) = some written ∧ read? written = some t := by
  constructor
  · intro negative size hsize
    have hle : ((if negative then -(size.units : Int) else size.units).tdiv Magnitude.one).natAbs ≤ maxMillis := by
      rw [Int.natAbs_tdiv, Int.natAbs_natCast]
      refine Nat.div_le_of_le_mul ?_
      rw [Nat.mul_comm]
      split <;> simpa using hsize
    refine ⟨_, ?_, read?_millisText hle⟩
    rw [text?, millis?, Number.whole?_finite, Option.filter_some, if_pos (decide_eq_true hle), Option.map_some]
  · intro text t ht
    have hle := natAbs_le_of_read? ht
    have hmax : maxMillis = 8640000000000000 := rfl
    refine ⟨hle, Number.ofInt_eq (by omega), String.ofList (millisText t), ?_, read?_millisText hle⟩
    rw [text?, millis?_ofInt hle, Option.map_some]

/-- Half a millisecond is cut off before 1970 as well; and a time of the year 9999 may be one of the year 10000 in UTC. -/
theorem read_text_millennium :
    (∃ text, text? (.finite true ⟨3 * 2 ^ 51, 1022, by decide, by decide, fun _ => by decide⟩) = some text ∧
      read? text = some (-1)) ∧
    read? "9999-12-31T23:59:59.5-01:00" = some 253402304399500 ∧
    ∃ written, text? (Number.ofInt 253402304399500) = some written ∧ read? written = some 253402304399500 := by
  have hread : read? "9999-12-31T23:59:59.5-01:00" = some 253402304399500 := by decide +kernel
  refine ⟨?_, hread, (read_text.2 _ _ hread).2.2⟩
  obtain ⟨text, ht, hr⟩ := read_text.1 true ⟨3 * 2 ^ 51, 1022, by decide, by decide, fun _ => by decide⟩ (by decide +kernel)
  exact ⟨text, ht, hr.trans (by decide +kernel)⟩

example : text? (Number.ofInt 253402304399500) = some "+010000-01-01T00:59:59.500Z" := by decide +kernel

/-- What the constructor of dates makes of a text. -/
def timeOf (text : String) : Number := ((read? text).map Number.ofInt).getD .nan

/-- **A date that is written and read has the same text**; what is no date is written as `null` and stays none. -/
theorem text?_timeOf (time : Number) : text? (timeOf ((text? time).getD "null")) = text? time := by
  have hnone : text? .nan = none := rfl
  cases hm : millis? time with
  | none =>
    have hnull : read? "null" = none := by decide +kernel
    have ht : text? time = none := by rw [text?, hm, Option.map_none]
    rw [ht, Option.getD_none, timeOf, hnull]
    exact hnone
  | some m =>
    have hle : m.natAbs ≤ maxMillis := by simpa using (Option.filter_eq_some_iff.1 hm).2
    have ht : text? time = some (String.ofList (millisText m)) := by rw [text?, hm, Option.map_some]
    rw [ht, Option.getD_some, timeOf, read?_millisText hle, Option.map_some, Option.getD_some, text?, millis?_ofInt hle,
      Option.map_some]

/-! ## Characters -/

/-- The text of a date has digits and a few signs in it. -/
theorem mem_millisText {m : Int} (h : c ∈ millisText m) : isDigit c = true ∨ c ∈ ['+', '-', ':', '.', 'T', 'Z'] := by
  have hpad : ∀ {w n : Nat}, c ∈ padded w n → isDigit c = true ∨ c ∈ ['+', '-', ':', '.', 'T', 'Z'] :=
    fun h => .inl (isDigit_of_mem_padded h)
  have hyear : ∀ {y : Int}, c ∈ yearText y → isDigit c = true ∨ c ∈ ['+', '-', ':', '.', 'T', 'Z'] := by
    intro y h
    unfold yearText at h
    split at h
    · exact hpad h
    · rcases List.mem_cons.1 h with rfl | h
      · split <;> decide
      · exact hpad h
  unfold millisText dayText clockText at h
  simp only [List.mem_append, List.mem_cons, List.not_mem_nil, or_false] at h
  grind

end Date

end Readback
