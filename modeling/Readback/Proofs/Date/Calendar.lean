import Mathlib.Order.Monotone.Basic
import Mathlib.Tactic.IntervalCases
import Readback.Date.Calendar
/-!
# Days and their numbers

The day with a number is in the calendar, and has that number; no other day of the calendar has it.  Behind it comes, by the
rules of the Gregorian calendar, the day with the next number (`ofNumber_succ`).
-/
namespace Readback.Day

/-! ## Years of an era -/

/-- **A day of an era lies in one of its years**, which has days enough for it: a day more in the last of four years, unless
a century ends that is not the last. -/
theorem yearOfEra_spec {n : Nat} (hn : n < eraDays) :
    daysBeforeYear (yearOfEra n).1 + (yearOfEra n).2 = n ∧ (yearOfEra n).1 < 400 ∧ (yearOfEra n).2 ≤ 365 ∧
      ((yearOfEra n).2 = 365 → ((yearOfEra n).1 + 1) % 4 = 0 ∧
        (((yearOfEra n).1 + 1) % 100 ≠ 0 ∨ ((yearOfEra n).1 + 1) % 400 = 0)) := by
  unfold eraDays at hn
  unfold yearOfEra daysBeforeYear
  dsimp only
  generalize hc : min (n / 36524) 3 = century
  generalize hr : n - century * 36524 = inCentury
  generalize hf : inCentury / 1461 = four
  generalize hs : inCentury - four * 1461 = inFour
  generalize hy : min (inFour / 365) 3 = year
  have hcentury : century ≤ 3 ∧ century * 36524 ≤ n ∧ inCentury ≤ 36524 ∧ (inCentury = 36524 → century = 3) := by omega
  have hfour : four ≤ 24 ∧ inFour ≤ 1460 ∧ inCentury = four * 1461 + inFour := by omega
  have hyear : year ≤ 3 ∧ year * 365 ≤ inFour ∧ inFour - year * 365 ≤ 365 ∧ (inFour - year * 365 = 365 → year = 3) := by
    omega
  have h₄ : (century * 100 + four * 4 + year) / 4 = century * 25 + four := by omega
  have h₁₀₀ : (century * 100 + four * 4 + year) / 100 = century := by omega
  rw [h₄, h₁₀₀]
  refine ⟨by omega, by omega, by omega, fun h => ?_⟩
  omega

/-- A day of a year that starts in March lies in one of its months. -/
theorem marchMonth_spec {n : Nat} (hn : n ≤ 365) :
    (5 * n + 2) / 153 ≤ 11 ∧ daysBeforeMonth ((5 * n + 2) / 153) ≤ n ∧
      n < daysBeforeMonth ((5 * n + 2) / 153 + 1) := by
  unfold daysBeforeMonth
  omega

/-! ## The day with a number -/

/-- The days from the start of era zero to the start of a year, which is in March. -/
def yearStart (marchYear : Int) : Int := marchYear / 400 * eraDays + daysBeforeYear (marchYear % 400).toNat

theorem number_eq (d : Day) : d.number = yearStart d.marchYear + daysBeforeMonth d.marchMonth + d.day - 1 - epoch := rfl

theorem isLeap_iff {year : Int} : isLeap year = true ↔ year % 4 = 0 ∧ (year % 100 ≠ 0 ∨ year % 400 = 0) := by
  simp [isLeap]

theorem month_spec {m : Nat} (hm : m ≤ 11) :
    1 ≤ (if m < 10 then m + 3 else m - 9) ∧ (if m < 10 then m + 3 else m - 9) ≤ 12 ∧
      ((if m < 10 then m + 3 else m - 9) ≤ 2 ↔ 10 ≤ m) ∧ ((if m < 10 then m + 3 else m - 9) + 9) % 12 = m := by
  split <;> omega

/-- **The day with a number**: a month and a day in a year that starts in March, from where the days up to it are counted.  The
year has a day more when a leap year ends it. -/
theorem ofNumber_spec (n : Int) : ∃ (year : Int) (m day : Nat),
    ofNumber n = ⟨if 10 ≤ m then year + 1 else year, if m < 10 then m + 3 else m - 9, day⟩ ∧
      yearStart year + daysBeforeMonth m + day - 1 = n + epoch ∧ m ≤ 11 ∧ 1 ≤ day ∧
      daysBeforeMonth m + day ≤ daysBeforeMonth (m + 1) ∧
      daysBeforeMonth m + day ≤ if isLeap (year + 1) then 366 else 365 := by
  have hlt := Int.emod_lt_of_pos (n + epoch) (show (0 : Int) < eraDays by decide)
  have hpos := Int.emod_nonneg (n + epoch) (show (eraDays : Int) ≠ 0 by decide)
  have hdiv := Int.ediv_mul_add_emod (n + epoch) eraDays
  obtain ⟨hsum, hyear, hle, hlast⟩ := @yearOfEra_spec ((n + epoch) % eraDays).toNat (by omega)
  rcases hy : yearOfEra ((n + epoch) % eraDays).toNat with ⟨year, dayOfYear⟩
  rw [hy] at hsum hyear hle hlast
  dsimp only at hsum hyear hle hlast
  obtain ⟨hm, hbefore, hbehind⟩ := marchMonth_spec hle
  refine ⟨(n + epoch) / eraDays * 400 + year, (5 * dayOfYear + 2) / 153,
    dayOfYear - daysBeforeMonth ((5 * dayOfYear + 2) / 153) + 1, ?_, ?_, hm, Nat.le_add_left 1 _, by omega, ?_⟩
  · unfold ofNumber
    dsimp only
    rw [hy]
    dsimp only
    rw [if_congr (month_spec hm).2.2.1 rfl rfl]
  · have hera : ((n + epoch) / eraDays * 400 + year : Int) / 400 = (n + epoch) / eraDays := by omega
    have hof : (((n + epoch) / eraDays * 400 + year : Int) % 400).toNat = year := by omega
    rw [yearStart, hera, hof]
    omega
  · split
    · omega
    · rename_i hleap
      have hne : dayOfYear ≠ 365 := fun h => hleap (isLeap_iff.2 (by have := hlast h; omega))
      omega

/-- **The day with a number has it.** -/
theorem number_ofNumber (n : Int) : (ofNumber n).number = n := by
  obtain ⟨year, m, day, hn, hnumber, hm, -⟩ := ofNumber_spec n
  obtain ⟨-, -, hmonth, hmarch⟩ := month_spec hm
  have hyear : (if 10 ≤ m then (if 10 ≤ m then year + 1 else year) - 1 else if 10 ≤ m then year + 1 else year) = year := by
    split <;> omega
  rw [hn, number_eq, marchYear, marchMonth, if_congr hmonth rfl rfl, hyear, hmarch, hnumber, Int.add_sub_cancel]

/-! ## The day with a number is in the calendar -/

/-- The months of a year that starts in March have the lengths of the calendar, but the last. -/
theorem monthLength_of_marchMonth {m : Nat} (hm : m < 11) (year : Int) :
    daysBeforeMonth (m + 1) - daysBeforeMonth m = monthLength year (if m < 10 then m + 3 else m - 9) := by
  unfold daysBeforeMonth monthLength
  interval_cases m <;> rfl

theorem real_ofNumber (n : Int) : (ofNumber n).Real := by
  obtain ⟨year, m, day, hn, -, hm, hday, hmonth, hyear⟩ := ofNumber_spec n
  obtain ⟨h₁, h₁₂, -⟩ := month_spec hm
  rw [hn]
  refine ⟨h₁, h₁₂, hday, ?_⟩
  dsimp only
  rcases Nat.lt_or_eq_of_le hm with hm | rfl
  · rw [← monthLength_of_marchMonth hm]
    omega
  · -- February: its last day is there in leap years only
    have hbefore : daysBeforeMonth 11 = 337 := rfl
    have hlength : monthLength (year + 1) 2 = if isLeap (year + 1) then 29 else 28 := if_pos rfl
    rw [hbefore] at hyear
    show day ≤ monthLength (year + 1) 2
    rw [hlength]
    split at hyear <;> rename_i hleap
    · rw [if_pos hleap]
      omega
    · rw [if_neg hleap]
      omega

theorem year_ofNumber_bound {n : Int} (h : n.natAbs ≤ 100000000) : (ofNumber n).year.natAbs < 1000000 := by
  obtain ⟨year, m, day, hn, hnumber, hm, -, hmonth, -⟩ := ofNumber_spec n
  have hera : (eraDays : Int) = 146097 := rfl
  have hepoch : (epoch : Int) = 719468 := rfl
  unfold yearStart daysBeforeYear daysBeforeMonth at hnumber
  unfold daysBeforeMonth at hmonth
  rw [hera, hepoch] at hnumber
  rw [hn]
  dsimp only
  split <;> omega

/-! ## The day after

Each day but the last of its month is followed by the next day of the month, and the months have the lengths that they have
in the Gregorian calendar.  Numbers and days of the calendar are one to one, and go on together. -/

theorem yearStart_succ (y : Int) : yearStart (y + 1) = yearStart y + 365 + if isLeap (y + 1) then 1 else 0 := by
  have hera : (eraDays : Int) = 146097 := rfl
  unfold yearStart daysBeforeYear
  rw [hera]
  simp only [isLeap_iff]
  split <;> omega

theorem yearStart_le {y y' : Int} (h : y ≤ y') : yearStart y ≤ yearStart y' := monotone_int_of_le_succ (fun y => by
  rw [yearStart_succ]
  split <;> omega) h

/-- All months but February, the last of the year, end where the next one starts. -/
theorem daysBeforeMonth_succ {month : Nat} (year : Int) (h₁ : 1 ≤ month) (h₁₂ : month ≤ 12) (hm : month ≠ 2) :
    daysBeforeMonth ((month + 9) % 12 + 1) = daysBeforeMonth ((month + 9) % 12) + monthLength year month := by
  have hlength := @monthLength_of_marchMonth ((month + 9) % 12) (by omega) year
  have hmonth : (if (month + 9) % 12 < 10 then (month + 9) % 12 + 3 else (month + 9) % 12 - 9) = month := by
    split <;> omega
  rw [hmonth] at hlength
  unfold daysBeforeMonth at hlength ⊢
  omega

theorem monthLength_pos (year : Int) (month : Nat) : 1 ≤ monthLength year month := by
  unfold monthLength
  split <;> split <;> omega

/-- The day after. -/
def next (d : Day) : Day :=
  if d.day < monthLength d.year d.month then { d with day := d.day + 1 }
  else if d.month < 12 then ⟨d.year, d.month + 1, 1⟩
  else ⟨d.year + 1, 1, 1⟩

theorem real_next {d : Day} (hd : d.Real) : d.next.Real := by
  obtain ⟨hm, hm', hd, hd'⟩ := hd
  unfold next
  split
  · exact ⟨hm, hm', Nat.le_add_left 1 _, ‹_›⟩
  · split
    · exact ⟨Nat.le_add_left 1 _, ‹_›, Nat.le_refl 1, monthLength_pos _ _⟩
    · exact ⟨Nat.le_refl 1, Nat.le_add_left 1 11, Nat.le_refl 1, monthLength_pos _ _⟩

/-- The first day of a month follows the last day of the month before. -/
theorem number_first {month : Nat} (year : Int) (h₁ : 1 ≤ month) (h₁₁ : month ≤ 11) :
    number ⟨year, month + 1, 1⟩ = number ⟨year, month, monthLength year month⟩ + 1 := by
  rw [number_eq, number_eq]
  unfold marchYear marchMonth
  dsimp only
  by_cases hm : month = 2
  · -- March starts a year: February has a day more when that year is a leap year
    subst hm
    have hs := yearStart_succ (year - 1)
    rw [Int.sub_add_cancel] at hs
    have h₀ : daysBeforeMonth 0 = 0 := rfl
    have h₁₁ : daysBeforeMonth 11 = 337 := rfl
    simp only [show ¬ 2 + 1 ≤ 2 by decide, if_false, Nat.le_refl, if_true, hs, monthLength, Nat.reduceAdd, Nat.reduceMod,
      h₀, h₁₁]
    split <;> omega
  · have hlength := daysBeforeMonth_succ year h₁ (by omega) hm
    have hmonth : (month + 1 + 9) % 12 = (month + 9) % 12 + 1 := by omega
    have hyear : month + 1 ≤ 2 ↔ month ≤ 2 := by omega
    rw [hmonth, hlength, if_congr hyear rfl rfl]
    omega

/-- The first day of a year follows the last of December. -/
theorem number_newYear (year : Int) : number ⟨year + 1, 1, 1⟩ = number ⟨year, 12, 31⟩ + 1 := by
  rw [number_eq, number_eq]
  simp [marchYear, marchMonth, daysBeforeMonth]
  omega

/-- **The day after a day has the next number.** -/
theorem number_next {d : Day} (hd : d.Real) : d.next.number = d.number + 1 := by
  obtain ⟨h₁, h₁₂, -, hle⟩ := hd
  unfold next
  split
  · rw [number_eq, number_eq]
    simp only [marchYear, marchMonth]
    omega
  · have hlast : monthLength d.year d.month = d.day := by omega
    split
    · rw [number_first d.year h₁ (by omega), hlast]
    · have hm : d.month = 12 := by omega
      have hday : d.day = 31 := by rw [← hlast, hm]; rfl
      rw [number_newYear, ← hm, ← hday]

/-- Where a day lies in its year: in a month, and before the next year. -/
theorem dayOfYear_bounds {d : Day} (hd : d.Real) :
    daysBeforeMonth d.marchMonth + d.day ≤ daysBeforeMonth (d.marchMonth + 1) ∧
      (daysBeforeMonth d.marchMonth + d.day : Int) ≤ yearStart (d.marchYear + 1) - yearStart d.marchYear := by
  obtain ⟨year, month, day⟩ := d
  obtain ⟨h₁, h₁₂, -, hle⟩ := hd
  have hs := yearStart_succ (marchYear ⟨year, month, day⟩)
  dsimp only at h₁ h₁₂ hle
  by_cases hm : month = 2
  · subst hm
    have hyear : marchYear ⟨year, 2, day⟩ + 1 = year := Int.sub_add_cancel year 1
    rw [hyear] at hs ⊢
    rw [hs]
    simp only [monthLength, if_true, marchMonth, daysBeforeMonth] at hle ⊢
    split at hle <;> rename_i hl <;> simp only [hl, if_true, Bool.false_eq_true, if_false] <;> omega
  · have hlength := daysBeforeMonth_succ year h₁ h₁₂ hm
    have hlast : daysBeforeMonth ((month + 9) % 12 + 1) ≤ 337 := by
      unfold daysBeforeMonth
      omega
    have hyear : yearStart (marchYear ⟨year, month, day⟩) + 365 ≤ yearStart (marchYear ⟨year, month, day⟩ + 1) := by
      rw [hs]
      split <;> omega
    unfold marchMonth
    dsimp only
    omega

/-- **A number belongs to one day.** -/
theorem eq_of_number {d d' : Day} (hd : d.Real) (hd' : d'.Real) (h : d.number = d'.number) : d = d' := by
  obtain ⟨hm, hy⟩ := dayOfYear_bounds hd
  obtain ⟨hm', hy'⟩ := dayOfYear_bounds hd'
  have hday : 1 ≤ d.day := hd.2.2.1
  have hday' : 1 ≤ d'.day := hd'.2.2.1
  rw [number_eq, number_eq] at h
  have hyear : d.marchYear = d'.marchYear := by
    rcases Int.lt_trichotomy d.marchYear d'.marchYear with hlt | heq | hlt
    · have := yearStart_le (Int.add_one_le_of_lt hlt)
      omega
    · exact heq
    · have := yearStart_le (Int.add_one_le_of_lt hlt)
      omega
  rw [hyear] at h
  have hmonth : d.marchMonth = d'.marchMonth := by
    unfold daysBeforeMonth at h hm hm'
    omega
  rw [hmonth] at h
  obtain ⟨year, month, day⟩ := d
  obtain ⟨year', month', day'⟩ := d'
  obtain ⟨h₁, h₁₂, -, -⟩ := hd
  obtain ⟨h₁', h₁₂', -, -⟩ := hd'
  unfold marchYear at hyear
  unfold marchMonth at hmonth h
  dsimp only at *
  obtain rfl : month = month' := by omega
  obtain rfl : day = day' := by omega
  obtain rfl : year = year' := by split at hyear <;> omega
  rfl

/-- **The calendar is the Gregorian one**: behind the day with a number comes the day with the next number. -/
theorem ofNumber_succ (n : Int) : ofNumber (n + 1) = (ofNumber n).next :=
  eq_of_number (real_ofNumber _) (real_next (real_ofNumber n)) (by
    rw [number_ofNumber, number_next (real_ofNumber n), number_ofNumber])

example : ofNumber 0 = ⟨1970, 1, 1⟩ := by decide

end Readback.Day
