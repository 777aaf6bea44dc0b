import Readback.Proofs.Number.Spelling
import Readback.Proofs.Token.Front
/-!
# Tokens that are written

The texts of names, numbers, strings and regular expressions, each read as the token that it was written for.
-/
namespace Readback

namespace Token

open Text (isDigit)

/-! ## The first character -/

/-- What starts with a character that a token goes on with is no trivia. -/
theorem trivia_of_not_mem_fences {c : Char} (h : c ∉ fences) (cs : List Char) : trivia (c :: cs) = .none := by
  refine trivia_cons_eq_none.2 ⟨?_, ?_⟩
  · rw [Bool.eq_false_iff]
    exact fun hs => h (mem_fences_of_isSpace hs)
  · have hc : c ≠ '/' := by
      rintro rfl
      exact h (by decide)
    simp [opensComment, hc]

/-- What holds of the ten digits holds of whatever is a digit. -/
theorem of_isDigit (P : Char → Prop) (hall : ∀ n < 10, P (Char.ofNat (48 + n))) {c : Char} (h : isDigit c = true) : P c := by
  have hc : 48 ≤ c.toNat ∧ c.toNat ≤ 57 := by
    simp only [isDigit, Bool.and_eq_true, decide_eq_true_eq] at h
    exact h
  rw [← Char.ofNat_toNat c, show c.toNat = 48 + (c.toNat - 48) by omega]
  exact hall _ (by omega)

theorem startsName_of_isDigit {c : Char} (h : isDigit c = true) : startsName c = false :=
  of_isDigit (startsName · = false) (by decide +kernel) h

theorem continuesName_of_isDigit {c : Char} (h : isDigit c = true) : continuesName c = true :=
  of_isDigit (continuesName · = true) (by decide +kernel) h

/-! ## Numbers -/

section

variable {whole part ds rest : List Char} {power : Option Int} {point exponent : Bool}

theorem decimalSize_digits (hd : ∀ c ∈ ds, isDigit c = true) :
    decimalSize point exponent (ds ++ rest) = ds.length + decimalSize point exponent rest := by
  induction ds with
  | nil => rw [List.nil_append, List.length_nil, Nat.zero_add]
  | cons c ds ih =>
    obtain ⟨hc, hds⟩ := List.forall_mem_cons.1 hd
    rw [List.cons_append, decimalSize_cons, if_pos (by rw [hc, Bool.true_or]), ih hds, List.length_cons]
    omega

theorem decimalSize_powerText (point : Bool) (power : Option Int) :
    decimalSize point false (Number.powerText power) = (Number.powerText power).length := by
  cases power with
  | none => rfl
  | some p =>
    have hd := @decimalSize_digits (Text.digits p.natAbs) [] point true fun c => Text.isDigit_of_mem_digits
    rw [List.append_nil, decimalSize, Nat.add_zero] at hd
    unfold Number.powerText
    rw [decimalSize_cons, if_neg (by decide), if_neg (by cases point <;> decide), if_pos (by decide),
      if_pos (by split <;> rfl), List.drop_one, List.tail_cons, hd, List.length_cons, List.length_cons]
    omega

/-- **A spelling of a number is one numeral.** -/
theorem numeral_spelling (hd : ∀ c ∈ whole ++ part, isDigit c = true) :
    numeral (Number.spelling whole part power) =
      ⟨(Number.spelling whole part power).length, .ok ()⟩ := by
  obtain ⟨hdw, hdp⟩ : (∀ c ∈ whole, isDigit c = true) ∧ ∀ c ∈ part, isDigit c = true :=
    ⟨fun c hc => hd c (List.mem_append_left _ hc), fun c hc => hd c (List.mem_append_right _ hc)⟩
  have hdecimal : decimalSize false false (Number.spelling whole part power) =
      (Number.spelling whole part power).length := by
    unfold Number.spelling
    rw [decimalSize_digits hdw, List.length_append]
    by_cases hpart : part = []
    · rw [if_pos hpart, List.nil_append, decimalSize_powerText]
    · rw [if_neg hpart, List.cons_append, decimalSize_cons, if_neg (by decide), if_pos (by decide), decimalSize_digits hdp,
        decimalSize_powerText, List.length_cons, List.length_append]
      omega
  have hradix : ¬ ((Number.spelling whole part power).head? = some '0' ∧
      ((Number.spelling whole part power).drop 1).head?.any isRadixLetter = true) := by
    rintro ⟨-, h⟩
    obtain ⟨c, hc, hr⟩ := (Option.any_eq_true _ _).1 h
    rcases Number.mem_spelling hd (List.mem_of_mem_drop (List.mem_of_head? hc)) with hx | rfl | rfl | rfl | rfl
    · simp only [isRadixLetter, Bool.or_eq_true, beq_iff_eq] at hr
      rcases hr with ((((rfl | rfl) | rfl) | rfl) | rfl) | rfl <;> cases hx
    all_goals cases hr
  unfold numeral
  rw [numeralSize_eq, if_neg hradix, hdecimal]
  dsimp only
  rw [List.drop_length]
  rfl

end

/-! ## Strings -/

section

variable {quote : Char} {cs x : List Char}

/-- Characters that stand for themselves. -/
theorem stringBody_plain (hcs : ∀ c ∈ cs, c ≠ quote ∧ c ≠ '\n' ∧ c ≠ '\r' ∧ c ≠ '\\') :
    stringBody quote (cs ++ quote :: x) = ⟨cs.length + 1, .ok cs⟩ := by
  induction cs with
  | nil => rw [List.nil_append, stringBody, if_pos rfl]; rfl
  | cons c cs ih =>
    obtain ⟨⟨h₁, h₂, h₃, h₄⟩, hcs⟩ := List.forall_mem_cons.1 hcs
    rw [List.cons_append, stringBody, if_neg h₁, if_neg (by simp [h₂, h₃]), if_neg h₄, ih hcs]
    rfl

end

end Token

namespace Lexer

open Token (Kind Gap)

variable {l : Lexer} {x : List Char} {c : Char} {cs : List Char}

/-! ## Tokens at a place -/

/-- A name is a token. -/
theorem front_of_name (h : Token.startsName c = true) (hcs : ∀ d ∈ cs, Token.continuesName d = true)
    (hx : ∀ d, x.head? = some d → Token.continuesName d = false) (hr : l.cursor.rest = c :: cs ++ x) :
    l.Front [] (c :: cs) x (Token.kindOfName (String.ofList (c :: cs))) (c :: cs) false := by
  have hrun : Token.nameRun (c :: cs ++ x) = c :: cs := by
    unfold Token.nameRun
    rw [List.takeWhile_append_of_pos (List.forall_mem_cons.2 ⟨Token.continuesName_of_startsName h, hcs⟩),
      List.append_right_eq_self, Token.takeWhile_eq_nil]
    exact hx
  have hc : c ∉ Token.fences := fun hc => by
    rw [Token.startsName_fence c hc] at h
    cases h
  refine ⟨hr, .none, Token.trivia_of_not_mem_fences hc _, nofun, ?_⟩
  rw [List.cons_append, scan_cons, if_pos h, ← List.cons_append, hrun]

/-- A number that is written is a token. -/
theorem front_of_number {whole part : List Char} {power : Option Int} (hw : whole ≠ [])
    (hd : ∀ c ∈ whole ++ part, Text.isDigit c = true) (hx : Token.Fence [] x)
    (hr : l.cursor.rest = Number.spelling whole part power ++ x) :
    l.Front [] (Number.spelling whole part power) x .number (Number.spelling whole part power) false := by
  have hn := @Token.numeral_spelling whole part power hd
  obtain ⟨c, cs, hcs⟩ : ∃ c cs, Number.spelling whole part power = c :: cs ∧ Text.isDigit c = true := by
    rcases whole with _ | ⟨c, whole⟩
    · exact absurd rfl hw
    · exact ⟨c, _, rfl, hd c List.mem_cons_self⟩
  obtain ⟨hcs, hc⟩ := hcs
  rw [hcs] at hr hn ⊢
  have hne : c ∉ Token.fences := fun hm => by
    rw [Token.isDigit_fence c hm] at hc
    cases hc
  have hfence := Token.numeral_fence (x := []) (y := x) (t := c :: cs) nofun (by rwa [List.append_nil]) hx
  refine ⟨hr, .none, Token.trivia_of_not_mem_fences hne _, nofun, ?_⟩
  rw [List.cons_append, scan_cons, if_neg (by simp [Token.startsName_of_isDigit hc]),
    if_pos (by rw [startsNumber, hc, Bool.true_or]), ← List.cons_append, hfence]
  dsimp only
  rw [List.take_left]
  rfl

/-- A string that is written is a token. -/
theorem front_of_string {quote : Char} {body v : List Char} (hq : quote = '"' ∨ quote = '\'')
    (hb : Token.stringBody quote (body ++ quote :: x) = ⟨body.length + 1, .ok v⟩)
    (hr : l.cursor.rest = quote :: (body ++ [quote]) ++ x) :
    l.Front [] (quote :: (body ++ [quote])) x .string v false := by
  have hall : quote ∉ Token.fences ∧ Token.startsName quote = false ∧ Text.isDigit quote = false ∧ quote ≠ '.' := by
    rcases hq with rfl | rfl <;> decide +kernel
  obtain ⟨h₁, h₂, h₃, h₄⟩ := hall
  refine ⟨hr, .none, Token.trivia_of_not_mem_fences h₁ _, nofun, ?_⟩
  rw [List.cons_append, scan_cons, if_neg (by simp [h₂]), if_neg (by simp [startsNumber, h₃, h₄]), if_pos hq,
    List.append_assoc, List.singleton_append, hb]
  refine Token.Scan.eq_of ?_ rfl
  simp only [List.length_cons, List.length_append, List.length_nil]
  omega

/-- A regular expression is a token where one is allowed. -/
theorem front_of_regex {t : List Char} (hl : l.regexAllowed = true) (ht : Token.regex ('/' :: t) = ⟨t.length + 1, .ok ()⟩)
    (hc : Token.opensComment '/' t = false) (hx : Token.Fence [] x) (hr : l.cursor.rest = '/' :: t ++ x)
    (hne : t ≠ []) : l.Front [] ('/' :: t) x .regex ('/' :: t) false := by
  have hregex := Token.regex_fence (x := []) (y := x) (t := '/' :: t) (by rwa [List.append_nil]) hx
  refine ⟨hr, .none, Token.trivia_cons_eq_none.2 ⟨by decide, ?_⟩, nofun, ?_⟩
  · unfold Token.opensComment at hc ⊢
    rcases t with _ | ⟨d, t⟩
    · exact absurd rfl hne
    · exact hc
  · rw [List.cons_append, scan_cons, if_neg (by decide +kernel), if_neg (by simp [startsNumber, Text.isDigit]),
      if_neg (by decide), if_pos ⟨rfl, hl⟩, ← List.cons_append, hregex]
    dsimp only
    rw [List.take_left]
    rfl

end Lexer

end Readback
