import Mathlib.Data.List.Find
import Mathlib.Data.List.TakeWhile
import Readback.Proofs.Token.Scan
/-!
# The end of a token

A token is found by its own text and by one character more.  So behind it another text may stand than the one that does, if
that begins with the same character, or with one that goes on with no token.
-/
namespace Readback.Token

open Text (isDigit)

/-- The characters that go on with no token: blanks, closing brackets, and what separates. -/
def fences : List Char :=
  ['\t', '\n', '\x0b', '\x0c', '\r', ' ', '\u0085', '\u00a0', '\u1680', '\u2000', '\u2001', '\u2002', '\u2003', '\u2004',
   '\u2005', '\u2006', '\u2007', '\u2008', '\u2009', '\u200a', '\u2028', '\u2029', '\u202f', '\u205f', '\u3000', '\ufeff',
   ')', ']', '\x7d', ',', ':', ';', '/']

theorem of_fences {p : Char → Bool} (h : fences.all (fun c => !p c) = true) : ∀ c ∈ fences, p c = false := by
  intro c hc
  simpa using List.all_eq_true.1 h c hc

/-- Behind a token, the second text may stand in the place of the first. -/
def Fence (x y : List Char) : Prop := y.head? = x.head? ∨ ∀ c, y.head? = some c → c ∈ fences

theorem Fence.nil (x : List Char) : Fence x [] := .inr fun _ h => nomatch h

theorem Fence.of_mem {c : Char} (h : c ∈ fences) (x cs : List Char) : Fence x (c :: cs) :=
  .inr fun _ hc => Option.some.inj hc ▸ h

theorem Fence.append {x y : List Char} (h : Fence x y) (t : List Char) : Fence (t ++ x) (t ++ y) := by
  cases t with
  | nil => exact h
  | cons c t => exact .inl rfl

/-- Where what is asked for is not there and no fence is it, it is not there in the other text. -/
theorem Fence.stops {p : Char → Bool} {x y : List Char} (hf : Fence x y) (hp : ∀ c ∈ fences, p c = false)
    (h : ∀ c, x.head? = some c → p c = false) : ∀ c, y.head? = some c → p c = false := by
  intro c hc
  rcases hf with he | hm
  · exact h c (he ▸ hc)
  · exact hp c (hm c hc)

theorem Fence.any {p : Char → Bool} {x y : List Char} (hf : Fence x y) (hp : ∀ c ∈ fences, p c = false)
    (h : y.head?.any p = true) : x.head?.any p = true := by
  obtain ⟨c, hc, hpc⟩ := (Option.any_eq_true _ _).1 h
  rcases hf with he | hm
  · rwa [← he]
  · rw [hp c (hm c hc)] at hpc
    cases hpc

/-- A blank goes on with no token. -/
theorem mem_fences_of_isSpace {c : Char} (h : isSpace c = true) : c ∈ fences := by
  have hall : ∀ n ∈ [9, 10, 11, 12, 13, 0x20, 0x85, 0xA0, 0x1680, 0x2000, 0x2001, 0x2002, 0x2003, 0x2004, 0x2005, 0x2006,
      0x2007, 0x2008, 0x2009, 0x200A, 0x2028, 0x2029, 0x202F, 0x205F, 0x3000], Char.ofNat n ∈ fences := by decide
  simp only [isSpace, Bool.or_eq_true, beq_iff_eq] at h
  rcases h with h | rfl
  · rw [← Char.ofNat_toNat c]
    refine hall _ ?_
    simp only [Text.isBlank, Bool.or_eq_true, Bool.and_eq_true, decide_eq_true_eq, beq_iff_eq] at h
    simp only [List.mem_cons, List.not_mem_nil, or_false]
    omega
  · decide

/-! ## Runs of characters -/

section

variable {p : Char → Bool} {t x y : List Char}

theorem takeWhile_eq_nil : x.takeWhile p = [] ↔ ∀ c, x.head? = some c → p c = false := by
  cases x with
  | nil => simp
  | cons c x => simp [List.takeWhile_cons]

theorem takeWhile_fence (hp : ∀ c ∈ fences, p c = false) (h : (t ++ x).takeWhile p = t) (hf : Fence x y) :
    (t ++ y).takeWhile p = t := by
  have ht : ∀ c ∈ t, p c = true := fun c hc => List.mem_takeWhile_imp (h.symm ▸ hc)
  rw [List.takeWhile_append_of_pos ht, List.append_right_eq_self, takeWhile_eq_nil] at h ⊢
  exact hf.stops hp h

theorem takeWhile_eq_of_length (h : ((t ++ x).takeWhile p).length = t.length) : (t ++ x).takeWhile p = t :=
  (List.prefix_of_prefix_length_le (List.takeWhile_prefix p) (List.prefix_append t x) (Nat.le_of_eq h)).eq_of_length h

/-- A run that ends inside a text does not see what is behind it. -/
theorem takeWhile_inside (h : ((t ++ x).takeWhile p).length < t.length) :
    (t ++ y).takeWhile p = (t ++ x).takeWhile p := by
  induction t with
  | nil => cases h
  | cons c t ih =>
    rw [List.cons_append, List.takeWhile_cons] at h ⊢
    rw [List.cons_append, List.takeWhile_cons]
    split
    · rename_i hc
      rw [if_pos hc] at h
      rw [ih (Nat.lt_of_succ_lt_succ h)]
    · rfl

theorem takeWhile_take_inside {n : Nat} (h : (((t ++ x).take n).takeWhile p).length < t.length) :
    ((t ++ y).take n).takeWhile p = ((t ++ x).take n).takeWhile p := by
  induction t generalizing n with
  | nil => cases h
  | cons c t ih =>
    cases n with
    | zero => rfl
    | succ n =>
      rw [List.cons_append, List.take_succ_cons, List.takeWhile_cons] at h ⊢
      rw [List.cons_append, List.take_succ_cons, List.takeWhile_cons]
      split
      · rename_i hc
        rw [if_pos hc] at h
        rw [ih (Nat.lt_of_succ_lt_succ h)]
      · rfl

end

variable {t x y : List Char}

/-! ## Names and numbers -/

theorem continuesName_fence : ∀ c ∈ fences, continuesName c = false := of_fences (by decide +kernel)

theorem startsName_fence (c : Char) (hc : c ∈ fences) : startsName c = false := by
  cases h : startsName c with
  | false => rfl
  | true  => exact (continuesName_of_startsName h).symm.trans (continuesName_fence c hc)

theorem nameRun_fence (h : nameRun (t ++ x) = t) (hf : Fence x y) : nameRun (t ++ y) = t :=
  takeWhile_fence continuesName_fence h hf

/-- The decimal goes on with the character. -/
def continuesDecimal (point exponent : Bool) (c : Char) : Bool :=
  isDigit c || c == '_' || (c == '.' && !point && !exponent) || (isExponentLetter c && !exponent)

theorem decimalSize_eq_zero {point exponent : Bool} {cs : List Char} :
    decimalSize point exponent cs = 0 ↔ ∀ c, cs.head? = some c → continuesDecimal point exponent c = false := by
  cases cs with
  | nil => simp [decimalSize]
  | cons c cs =>
    unfold decimalSize continuesDecimal
    simp only [List.head?_cons, Option.some.injEq, forall_eq', Bool.or_eq_false_iff]
    grind

/-- The sign of an exponent. -/
def isSign (c : Char) : Bool := c == '+' || c == '-'

theorem isSign_fence : ∀ c ∈ fences, isSign c = false := of_fences (by decide)

theorem continuesDecimal_fence (point exponent : Bool) : ∀ c ∈ fences, continuesDecimal point exponent c = false := by
  cases point <;> cases exponent <;> exact of_fences (by decide)

theorem decimalSize_cons (point exponent : Bool) (c : Char) (cs : List Char) :
    decimalSize point exponent (c :: cs) =
      if isDigit c || c == '_' then 1 + decimalSize point exponent cs
      else if c == '.' && !point && !exponent then 1 + decimalSize true exponent cs
      else if isExponentLetter c && !exponent then
        if cs.head?.any isSign then 2 + decimalSize point true (cs.drop 1) else 1 + decimalSize point true cs
      else 0 := by
  rw [decimalSize.eq_def]
  dsimp only
  congr 3
  rcases cs with _ | ⟨d, cs⟩
  · rfl
  · by_cases h₁ : d = '+'
    · subst h₁
      rfl
    · by_cases h₂ : d = '-'
      · subst h₂
        rfl
      · simp [isSign, h₁, h₂]

theorem decimalSize_fence (hf : Fence x y) : ∀ (point exponent : Bool) (t : List Char),
    decimalSize point exponent (t ++ x) = t.length → decimalSize point exponent (t ++ y) = t.length
  | point, exponent, [], h =>
    decimalSize_eq_zero.2 (hf.stops (continuesDecimal_fence point exponent) (decimalSize_eq_zero.1 h))
  | point, exponent, c :: t, h => by
    rw [List.cons_append, decimalSize_cons] at h ⊢
    simp only [List.length_cons] at h ⊢
    split
    · rename_i hc
      rw [if_pos hc] at h
      rw [decimalSize_fence hf point exponent t (by omega)]
      omega
    · rename_i hc
      rw [if_neg hc] at h
      split
      · rename_i hc
        rw [if_pos hc] at h
        rw [decimalSize_fence hf true exponent t (by omega)]
        omega
      · rename_i hc
        rw [if_neg hc] at h
        split
        · rename_i hc
          rw [if_pos hc] at h
          cases t with
          | nil =>
            have hx : ¬ x.head?.any isSign = true := by
              intro hx
              rw [List.nil_append, if_pos hx, List.length_nil] at h
              omega
            rw [List.nil_append, if_neg hx] at h
            rw [List.nil_append, if_neg fun hy => hx (hf.any isSign_fence hy)]
            rw [show y = [] ++ y from rfl, decimalSize_fence hf point true [] (by simp_all)]
            rfl
          | cons d t =>
            simp only [List.cons_append, List.head?_cons, List.drop_one, List.tail_cons, List.length_cons] at h ⊢
            split
            · rename_i hd
              rw [if_pos hd] at h
              rw [decimalSize_fence hf point true t (by omega)]
              omega
            · rename_i hd
              rw [if_neg hd, ← List.cons_append] at h
              rw [← List.cons_append, decimalSize_fence hf point true (d :: t) (by rw [List.length_cons]; omega),
                List.length_cons]
              omega
        · rename_i hc
          rw [if_neg hc] at h
          omega

theorem isRadixLetter_fence : ∀ c ∈ fences, isRadixLetter c = false := of_fences (by decide)

theorem continuesRadix_fence : ∀ c ∈ fences, continuesRadix c = false := of_fences (by decide)

theorem isDigit_fence : ∀ c ∈ fences, isDigit c = false := of_fences (by decide)

theorem numeralSize_fence (ht : t ≠ []) (h : numeralSize (t ++ x) = t.length) (hf : Fence x y) :
    numeralSize (t ++ y) = t.length := by
  rw [numeralSize_eq] at h ⊢
  rcases t with _ | ⟨c, _ | ⟨d, t⟩⟩
  · exact absurd rfl ht
  · simp only [List.singleton_append, List.head?_cons, List.drop_one, List.tail_cons, List.length_singleton] at h ⊢
    have hx : x.head?.any isRadixLetter = true → c ≠ '0' := by
      rintro hx rfl
      rw [if_pos ⟨rfl, hx⟩] at h
      omega
    have hy : y.head?.any isRadixLetter = true → c ≠ '0' := fun hy => hx (hf.any isRadixLetter_fence hy)
    rw [if_neg fun hc => hx hc.2 (Option.some.inj hc.1)] at h
    rw [if_neg fun hc => hy hc.2 (Option.some.inj hc.1)]
    exact decimalSize_fence hf false false [c] h
  · simp only [List.cons_append, List.head?_cons, List.drop_succ_cons, List.drop_zero, List.length_cons] at h ⊢
    split
    · rename_i hc
      rw [if_pos hc] at h
      rw [takeWhile_fence continuesRadix_fence (takeWhile_eq_of_length (Nat.add_left_cancel (h.trans (Nat.add_comm _ 2))))
        hf]
      omega
    · rename_i hc
      rw [if_neg hc] at h
      exact decimalSize_fence hf false false (c :: d :: t) h

theorem numeral_fence (ht : t ≠ []) (h : numeral (t ++ x) = ⟨t.length, .ok ()⟩) (hf : Fence x y) :
    numeral (t ++ y) = ⟨t.length, .ok ()⟩ := by
  unfold numeral at h ⊢
  have hn : numeralSize (t ++ x) = t.length := congrArg Scan.size h
  have ho := congrArg Scan.outcome h
  rw [numeralSize_fence ht hn hf]
  dsimp only at ho ⊢
  rw [hn, List.drop_left] at ho
  rw [List.drop_left, if_neg]
  intro hy
  rw [if_pos (hf.any startsName_fence hy)] at ho
  cases ho

/-- A point starts a number if a digit follows, and then the number does not end with the point. -/
theorem numeral_point (h : (t ++ x).head?.any isDigit = true) (hn : (numeral ('.' :: (t ++ x))).size = t.length + 1) :
    t ≠ [] := by
  rintro rfl
  obtain ⟨d, hd, hdigit⟩ := (Option.any_eq_true _ _).1 h
  obtain ⟨z, rfl⟩ : ∃ z, x = d :: z := List.head?_eq_some_iff.1 hd
  have h₂ : decimalSize false false ('.' :: d :: z) = 1 := hn
  have h₁ : decimalSize false false ('.' :: d :: z) = 1 + decimalSize true false (d :: z) := decimalSize_cons ..
  have h₃ := decimalSize_eq_zero.1 (Nat.add_eq_left.1 (h₁.symm.trans h₂)) d rfl
  simp [continuesDecimal, hdigit] at h₃

/-! ## Strings -/

theorem octalDigits_inside (h : (octalDigits (t ++ x)).length < t.length) :
    octalDigits (t ++ y) = octalDigits (t ++ x) := by
  rcases t with _ | ⟨c, t⟩
  · cases h
  · exact congrArg (c :: ·) (takeWhile_take_inside (Nat.lt_of_succ_lt_succ h))

theorem hexEscape_inside {n : Nat} (h : (hexEscape n (t ++ x)).size < t.length) :
    hexEscape n (t ++ y) = hexEscape n (t ++ x) := by
  unfold hexEscape at h ⊢
  dsimp only at h ⊢
  have hd : (((t ++ x).take n).takeWhile isHex).length < t.length := by
    split at h
    · rw [coded_size] at h
      omega
    · exact h
  rw [takeWhile_take_inside hd]

theorem head?_inside {a : List Char} (h : a ≠ []) : (a ++ y).head? = (a ++ x).head? := by
  cases a with
  | nil => exact absurd rfl h
  | cons c a => rfl

theorem unicodeEscape_inside (h : (unicodeEscape (t ++ x)).size < t.length) :
    unicodeEscape (t ++ y) = unicodeEscape (t ++ x) := by
  rcases t with _ | ⟨c, t⟩
  · cases h
  · by_cases hc : c = '\x7b'
    · subst hc
      simp only [List.cons_append, unicodeEscape, List.length_cons] at h ⊢
      have hd : ((t ++ x).takeWhile isHex).length < t.length := by
        split at h
        · rw [coded_size] at h
          omega
        · exact Nat.lt_of_succ_lt_succ h
      rw [takeWhile_inside hd, List.drop_append_of_le_length (Nat.le_of_lt hd),
        List.drop_append_of_le_length (Nat.le_of_lt hd), @head?_inside x y]
      exact fun hn => by simp at hn; omega
    · rw [List.cons_append, unicodeEscape.eq_2 _ (by simpa using hc)] at h ⊢
      rw [List.cons_append, unicodeEscape.eq_2 _ (by simpa using hc)]
      exact @hexEscape_inside (c :: t) x y 4 h

theorem ite_inside {q : Prop} [Decidable q] {a a' b b' : Scan (Option Char)} {n : Nat} (ha : a.size < n → a' = a)
    (hb : b.size < n → b' = b) (h : (if q then a else b).size < n) : (if q then a' else b') = if q then a else b := by
  by_cases hq : q
  · rw [if_pos hq] at h ⊢
    rw [if_pos hq, ha h]
  · rw [if_neg hq] at h ⊢
    rw [if_neg hq, hb h]

theorem escape_inside (h : (escape (t ++ x)).size < t.length) : escape (t ++ y) = escape (t ++ x) := by
  rcases t with _ | ⟨c, t⟩
  · cases h
  · rw [List.cons_append, escape.eq_2] at h
    rw [List.cons_append, List.cons_append, escape.eq_2, escape.eq_2]
    -- The letters are what they are; what reads on is asked in turn.
    refine ite_inside (fun _ => rfl) (ite_inside (fun _ => rfl) (ite_inside (fun _ => rfl) (ite_inside (fun _ => rfl)
      (ite_inside (fun _ => rfl) (ite_inside (fun _ => rfl) (ite_inside ?octal (ite_inside ?hex (ite_inside ?unicode
        (ite_inside ?carriage (fun _ => rfl)))))))))) h
    case octal =>
      intro h
      dsimp only at h
      rw [coded_size] at h
      rw [← List.cons_append, ← List.cons_append, octalDigits_inside h]
    case hex =>
      intro h
      dsimp only [Scan.after, List.length_cons] at h ⊢
      rw [@hexEscape_inside t x y 2 (by omega)]
    case unicode =>
      intro h
      dsimp only [Scan.after, List.length_cons] at h ⊢
      rw [@unicodeEscape_inside t x y (by omega)]
    case carriage =>
      intro h
      have ht : t ≠ [] := by
        rintro rfl
        dsimp only at h
        split at h <;> simp at h
      rw [@head?_inside x y _ ht]

theorem Scan.eq_of {α : Type} {s : Scan α} {n : Nat} {o : Except Fault α} (h₁ : s.size = n) (h₂ : s.outcome = o) :
    s = ⟨n, o⟩ := by
  rw [← h₁, ← h₂]

theorem stringBody_pos {quote : Char} {cs v : List Char} (h : (stringBody quote cs).outcome = .ok v) :
    0 < (stringBody quote cs).size := by
  rcases cs with _ | ⟨c, cs⟩
  · rw [stringBody] at h
    cases h
  · rw [stringBody]
    split
    · exact Nat.one_pos
    · split
      · exact Nat.one_pos
      · split
        · dsimp only
          split <;> exact Nat.succ_pos _
        · exact Nat.succ_pos _

theorem map_eq_ok {α β : Type} {f : α → β} {o : Except Fault α} {v : β} (h : o.map f = .ok v) :
    ∃ w, o = .ok w ∧ f w = v := by
  cases o with
  | ok w => exact ⟨w, rfl, Except.ok.inj h⟩
  | error _ => cases h

/-- **A string ends with its quote**, whatever is behind it. -/
theorem stringBody_local (quote : Char) : ∀ (t : List Char) {v : List Char},
    stringBody quote (t ++ x) = ⟨t.length, .ok v⟩ → stringBody quote (t ++ y) = ⟨t.length, .ok v⟩
  | [], _, h => absurd (congrArg Scan.size h) (Nat.ne_of_gt (stringBody_pos (congrArg Scan.outcome h)))
  | c :: t, v, h => by
    rw [List.cons_append, stringBody] at h ⊢
    by_cases hq : c = quote
    · rw [if_pos hq] at h ⊢
      exact h
    rw [if_neg hq] at h ⊢
    by_cases hn : c = '\n' ∨ c = '\r'
    · rw [if_pos hn] at h
      cases congrArg Scan.outcome h
    rw [if_neg hn] at h ⊢
    by_cases hb : c = '\\'
    · rw [if_pos hb] at h ⊢
      dsimp only at h ⊢
      split at h
      · cases congrArg Scan.outcome h
      · rename_i spelled he
        obtain ⟨w, hw, rfl⟩ := map_eq_ok (congrArg Scan.outcome h)
        have hs := congrArg Scan.size h
        have hp := stringBody_pos hw
        simp only [List.length_cons] at hs
        have hl : (escape (t ++ x)).size < t.length := by omega
        rw [List.drop_append_of_le_length (Nat.le_of_lt hl)] at hw hs
        have ih := stringBody_local quote (t.drop (escape (t ++ x)).size)
          (Scan.eq_of (by rw [List.length_drop]; omega) hw)
        rw [escape_inside hl, he, List.drop_append_of_le_length (Nat.le_of_lt hl), ih]
        dsimp only
        rw [List.length_drop, List.length_cons, show t.length - (escape (t ++ x)).size + ((escape (t ++ x)).size + 1) =
          t.length + 1 by omega]
        rfl
    · rw [if_neg hb] at h ⊢
      dsimp only at h ⊢
      obtain ⟨w, hw, rfl⟩ := map_eq_ok (congrArg Scan.outcome h)
      rw [stringBody_local quote t (Scan.eq_of (Nat.succ.inj (congrArg Scan.size h)) hw)]
      rfl
termination_by t => t.length
decreasing_by all_goals (simp only [List.length_drop, List.length_cons]; omega)

/-! ## Regular expressions -/

theorem regexBody_pos {inside : Bool} {cs : List Char} (h : (regexBody inside cs).2 = true) :
    0 < (regexBody inside cs).1 := by
  unfold regexBody at h ⊢
  split
  · cases h
  · exact Nat.one_pos
  · split <;> exact Nat.succ_pos _
  · split
    · exact Nat.one_pos
    · split <;> exact Nat.succ_pos _

theorem regexBody_cons {c : Char} (hc : c ≠ '\\') (inside : Bool) (cs : List Char) :
    regexBody inside (c :: cs) =
      if c == '/' && !inside then (1, true)
      else if Text.endsLine c then (1, false)
      else
        ((regexBody (c == '[' || (c != ']' && inside)) cs).1 + 1, (regexBody (c == '[' || (c != ']' && inside)) cs).2) :=
  regexBody.eq_4 inside c cs (fun h _ => hc h) (fun _ _ h _ => hc h)

theorem regexBody_step {inside : Bool} {c : Char} (hc : c ≠ '\\')
    (ih : ∀ i, regexBody i (t ++ x) = (t.length, true) → regexBody i (t ++ y) = (t.length, true))
    (h : regexBody inside (c :: (t ++ x)) = (t.length + 1, true)) :
    regexBody inside (c :: (t ++ y)) = (t.length + 1, true) := by
  rw [regexBody_cons hc] at h ⊢
  split
  · rename_i hs
    rw [if_pos hs] at h
    exact h
  · rename_i hs
    rw [if_neg hs] at h
    split
    · rename_i he
      rw [if_pos he] at h
      cases congrArg Prod.snd h
    · rename_i he
      rw [if_neg he] at h
      obtain ⟨h₁, h₂⟩ := Prod.mk.inj h
      rw [ih _ (Prod.ext (Nat.add_right_cancel h₁) h₂)]

/-- The body of a regular expression ends with its slash, whatever is behind it. -/
theorem regexBody_local : ∀ (inside : Bool) (t : List Char),
    regexBody inside (t ++ x) = (t.length, true) → regexBody inside (t ++ y) = (t.length, true)
  | inside, [], h => absurd (congrArg Prod.fst h) (Nat.ne_of_gt (regexBody_pos (congrArg Prod.snd h)))
  | inside, [c], h => by
    by_cases hc : c = '\\'
    · subst hc
      rcases x with _ | ⟨d, x⟩
      · cases congrArg Prod.snd h
      · rw [List.singleton_append, regexBody] at h
        split at h
        · cases congrArg Prod.snd h
        · have := congrArg Prod.fst h
          simp at this
    · exact regexBody_step hc (fun i hi => regexBody_local i [] hi) h
  | inside, c :: d :: t, h => by
    by_cases hc : c = '\\'
    · subst hc
      rw [List.cons_append, List.cons_append, regexBody] at h ⊢
      split
      · rename_i hd
        rw [if_pos hd] at h
        cases congrArg Prod.snd h
      · rename_i hd
        rw [if_neg hd] at h
        obtain ⟨h₁, h₂⟩ := Prod.mk.inj h
        rw [regexBody_local inside t (Prod.ext (Nat.add_right_cancel h₁) h₂)]
        rfl
    · exact regexBody_step hc (fun i hi => regexBody_local i (d :: t) hi) h

theorem regex_eq {cs : List Char} {n : Nat} (h : regexBody false (cs.drop 1) = (n, true)) :
    regex cs = ⟨n + 1 + (nameRun (cs.drop (n + 1))).length, .ok ()⟩ := by
  unfold regex
  dsimp only
  rw [h]
  rfl

theorem regexBody_of_regex {cs : List Char} (h : (regex cs).outcome = .ok ()) :
    ∃ n, regexBody false (cs.drop 1) = (n, true) := by
  refine ⟨(regexBody false (cs.drop 1)).1, Prod.ext rfl ?_⟩
  by_cases hc : (regexBody false (cs.drop 1)).2 = true
  · exact hc
  · unfold regex at h
    dsimp only at h
    rw [if_neg hc] at h
    cases h

theorem regex_fence (h : regex (t ++ x) = ⟨t.length, .ok ()⟩) (hf : Fence x y) : regex (t ++ y) = ⟨t.length, .ok ()⟩ := by
  obtain ⟨n, hn⟩ := regexBody_of_regex (congrArg Scan.outcome h)
  rw [regex_eq hn] at h
  have hs : n + 1 + (nameRun ((t ++ x).drop (n + 1))).length = t.length := congrArg Scan.size h
  rw [List.drop_append_of_le_length (by omega)] at hs hn
  -- The body and the flags are pieces of the token.
  obtain ⟨b, f, hb, rfl, rfl⟩ : ∃ b f, t.drop 1 = b ++ f ∧ n = b.length ∧ t.drop (n + 1) = f := by
    refine ⟨(t.drop 1).take n, (t.drop 1).drop n, (List.take_append_drop n _).symm, ?_, ?_⟩
    · rw [List.length_take, List.length_drop]
      omega
    · rw [List.drop_drop, Nat.add_comm]
  rw [hb, List.append_assoc] at hn
  have hy : regexBody false ((t ++ y).drop 1) = (b.length, true) := by
    rw [List.drop_append_of_le_length (by omega), hb, List.append_assoc]
    exact regexBody_local false b hn
  have hr : nameRun (t.drop (b.length + 1) ++ y) = t.drop (b.length + 1) :=
    nameRun_fence (takeWhile_eq_of_length (by rw [List.length_drop]; exact Nat.eq_sub_of_add_eq' hs)) hf
  rw [regex_eq hy, List.drop_append_of_le_length (by omega), hr, List.length_drop, Nat.add_sub_cancel' (by omega)]

/-! ## Punctuators -/

theorem punctuators_fence {p : List Char × Kind} (hp : p ∈ punctuators) {c : Char} (hc : c ∈ p.1.tail) : c ∉ fences := by
  have hall : punctuators.all (fun p => p.1.tail.all fun c => !fences.contains c) = true := by decide +kernel
  simpa using List.all_eq_true.1 (List.all_eq_true.1 hall p hp) c hc

/-- A longer punctuator stands before a shorter one. -/
theorem punctuators_sorted : punctuators.Pairwise fun p q => q.1.length ≤ p.1.length := by decide +kernel

/-- A punctuator without its last characters is one too. -/
theorem punctuators_closed : ∀ p ∈ punctuators, ∀ n, 0 < n → n ≤ p.1.length → ∃ q ∈ punctuators, q.1 = p.1.take n := by
  have : ∀ p ∈ punctuators, p.1.length ≤ 4 ∧
      ∀ n ∈ [1, 2, 3, 4], n ≤ p.1.length → ∃ q ∈ punctuators, q.1 = p.1.take n := by decide +kernel
  intro p hp n h₁ h₂
  refine (this p hp).2 n ?_ h₂
  have := (this p hp).1
  simp only [List.mem_cons, List.not_mem_nil, or_false]
  omega

/-- **The punctuator that is found is the longest.** -/
theorem punctuator_longest {cs : List Char} {k : Kind} (h : punctuator? cs = some (t, k)) {q : List Char × Kind}
    (hq : q ∈ punctuators) (hc : q.1 <+: cs) : q.1.length ≤ t.length := by
  obtain ⟨-, as, bs, hl, hb⟩ := List.find?_eq_some_iff_append.1 h
  have hs := punctuators_sorted
  rw [hl] at hq hs
  rcases List.mem_append.1 hq with hq | hq
  · have := hb q hq
    rw [List.isPrefixOf_iff_prefix.2 hc] at this
    cases this
  · rcases List.mem_cons.1 hq with rfl | hq
    · exact Nat.le_refl _
    · exact (List.pairwise_cons.1 (List.pairwise_append.1 hs).2.1).1 q hq

/-- No punctuator is longer than the one that is found, with a fence behind it either. -/
theorem punctuator_longest_fence {k : Kind} (h : punctuator? (t ++ x) = some (t, k)) (hf : Fence x y)
    {q : List Char × Kind} (hq : q ∈ punctuators) (hc : q.1 <+: t ++ y) : q.1.length ≤ t.length := by
  by_contra hl
  obtain ⟨r, hr⟩ := List.prefix_of_prefix_length_le (List.prefix_append t y) hc (by omega)
  rcases r with _ | ⟨c, r⟩
  · rw [List.append_nil] at hr
    exact hl (hr ▸ Nat.le_refl _)
  have hy : y.head? = some c := by
    rw [← hr, List.prefix_append_right_inj] at hc
    obtain ⟨z, rfl⟩ := hc
    rfl
  have ht : 0 < t.length := punctuator_pos h
  rcases hf with he | hm
  · -- A punctuator with one character more would have been found.
    obtain ⟨p, hp, hpe⟩ := punctuators_closed q hq (t.length + 1) (Nat.succ_pos _) (by omega)
    have hpt : p.1 = t ++ [c] := by
      rw [hpe, ← hr, List.take_append, List.take_of_length_le (Nat.le_succ _)]
      simp
    have hx : p.1 <+: t ++ x := by
      obtain ⟨z, hz⟩ : ∃ z, x = c :: z := List.head?_eq_some_iff.1 (he ▸ hy)
      exact ⟨z, by rw [hpt, hz, List.append_assoc]; rfl⟩
    have := punctuator_longest h hp hx
    rw [hpt, List.length_append, List.length_singleton] at this
    omega
  · refine punctuators_fence hq (c := c) ?_ (hm c hy)
    rw [← hr, List.tail_append_of_ne_nil (List.ne_nil_of_length_pos ht)]
    simp

theorem punctuator_fence {k : Kind} (h : punctuator? (t ++ x) = some (t, k)) (hf : Fence x y) :
    punctuator? (t ++ y) = some (t, k) := by
  rw [← h]
  refine List.find?_congr fun q hq => ?_
  rw [Bool.eq_iff_iff, List.isPrefixOf_iff_prefix, List.isPrefixOf_iff_prefix]
  constructor
  · intro hy
    exact (List.prefix_of_prefix_length_le hy (List.prefix_append t y) (punctuator_longest_fence h hf hq hy)).trans
      (List.prefix_append t x)
  · intro hx
    exact (List.prefix_of_prefix_length_le hx (List.prefix_append t x) (punctuator_longest h hq hx)).trans
      (List.prefix_append t y)

end Readback.Token

namespace Readback.Lexer

open Token (Kind Fence)

/-- A number that starts with its point has a digit behind it. -/
theorem startsNumber_fence {c : Char} {t x y : List Char} (h : startsNumber c (t ++ x) = true)
    (hn : (Token.numeral (c :: t ++ x)).size = (c :: t).length) : startsNumber c (t ++ y) = true := by
  rcases Bool.or_eq_true_iff.1 h with hd | hd
  · exact Bool.or_eq_true_iff.2 (.inl hd)
  · obtain ⟨hc, hd⟩ := Bool.and_eq_true_iff.1 hd
    obtain rfl : c = '.' := beq_iff_eq.1 hc
    rw [← Token.head?_inside (Token.numeral_point hd hn)] at hd
    exact Bool.or_eq_true_iff.2 (.inr (Bool.and_eq_true_iff.2 ⟨hc, hd⟩))

/-- A token that is all that was taken of a text ends where it ends, if the taking does. -/
theorem taken_fence {take : List Char → Token.Scan Unit} {t x y v : List Char} {k k' : Kind}
    (hf : take (t ++ x) = ⟨t.length, .ok ()⟩ → take (t ++ y) = ⟨t.length, .ok ()⟩)
    (h : (⟨(take (t ++ x)).size, (take (t ++ x)).outcome.map fun _ => (k', (t ++ x).take (take (t ++ x)).size)⟩ :
      Token.Scan (Kind × List Char)) = ⟨t.length, .ok (k, v)⟩) :
    (⟨(take (t ++ y)).size, (take (t ++ y)).outcome.map fun _ => (k', (t ++ y).take (take (t ++ y)).size)⟩ :
      Token.Scan (Kind × List Char)) = ⟨t.length, .ok (k, v)⟩ := by
  have hs : (take (t ++ x)).size = t.length := congrArg Token.Scan.size h
  obtain ⟨u, hu, he⟩ := Token.map_eq_ok (congrArg Token.Scan.outcome h)
  rw [hf (Token.Scan.eq_of hs hu)]
  rw [hs, List.take_left] at he
  dsimp only
  rw [List.take_left, ← he]
  rfl

/-- **A token ends where it ends**, with another text behind it that is a fence for it. -/
theorem scan_fence {regexAllowed : Bool} {t x y : List Char} {k : Kind} {v : List Char} (ht : t ≠ [])
    (h : scan regexAllowed (t ++ x) = ⟨t.length, .ok (k, v)⟩) (hf : Fence x y) :
    scan regexAllowed (t ++ y) = ⟨t.length, .ok (k, v)⟩ := by
  obtain ⟨c, s, rfl⟩ := List.exists_cons_of_ne_nil ht
  rw [List.cons_append, scan_cons] at h ⊢
  rw [← List.cons_append] at h ⊢
  by_cases hname : Token.startsName c = true
  · rw [if_pos hname] at h ⊢
    have hn : Token.nameRun (c :: s ++ x) = c :: s := Token.takeWhile_eq_of_length (congrArg Token.Scan.size h)
    rw [Token.nameRun_fence hn hf]
    rwa [hn] at h
  rw [if_neg hname] at h ⊢
  by_cases hx : startsNumber c (s ++ x) = true
  · rw [if_pos hx] at h
    rw [if_pos (startsNumber_fence hx (congrArg Token.Scan.size h))]
    exact taken_fence (fun hn => Token.numeral_fence ht hn hf) h
  have hy : ¬ startsNumber c (s ++ y) = true := by
    intro hy
    refine hx (Bool.or_eq_true_iff.2 ((Bool.or_eq_true_iff.1 hy).imp id fun hd => ?_))
    obtain ⟨hc, hd⟩ := Bool.and_eq_true_iff.1 hd
    exact Bool.and_eq_true_iff.2 ⟨hc, (hf.append s).any Token.isDigit_fence hd⟩
  rw [if_neg hx] at h
  rw [if_neg hy]
  by_cases hquote : c = '"' ∨ c = '\''
  · rw [if_pos hquote] at h ⊢
    obtain ⟨u, hu, he⟩ := Token.map_eq_ok (congrArg Token.Scan.outcome h)
    have hs : 1 + (Token.stringBody c (s ++ x)).size = s.length + 1 := congrArg Token.Scan.size h
    rw [Token.stringBody_local c s (Token.Scan.eq_of (by omega) hu), ← he]
    exact Token.Scan.eq_of (Nat.add_comm 1 _) rfl
  rw [if_neg hquote] at h ⊢
  by_cases hregex : c = '/' ∧ regexAllowed = true
  · rw [if_pos hregex] at h ⊢
    exact taken_fence (fun hr => Token.regex_fence hr hf) h
  rw [if_neg hregex] at h ⊢
  cases hp : Token.punctuator? (c :: s ++ x) with
  | none =>
    rw [hp] at h
    cases congrArg Token.Scan.outcome h
  | some p =>
    obtain ⟨text, kind⟩ := p
    rw [hp] at h
    have htext : text = c :: s :=
      (List.prefix_of_prefix_length_le (Token.punctuator_prefix hp) (List.prefix_append _ x)
        (Nat.le_of_eq (congrArg Token.Scan.size h))).eq_of_length (congrArg Token.Scan.size h)
    subst htext
    rw [Token.punctuator_fence hp hf]
    exact h

end Readback.Lexer
