import Mathlib.Data.List.TakeWhile
import Readback.Token.Lexer
/-!
# Scans

What the scan of a text takes: something, unless the text is at its end, and no more than there is.
-/
namespace Readback

namespace Token

open Text (isDigit)

theorem decimalSize_pos {c : Char} {cs : List Char} (h : isDigit c = true ∨ c = '.') :
    0 < decimalSize false false (c :: cs) := by
  unfold decimalSize
  rcases h with h | rfl
  · rw [if_pos (by simp [h])]
    omega
  · simp only [Bool.not_false, Bool.and_true, beq_self_eq_true, if_true]
    split <;> omega

theorem numeralSize_pos {c : Char} {cs : List Char} (h : isDigit c = true ∨ c = '.') :
    0 < numeralSize (c :: cs) := by
  unfold numeralSize
  split
  · split
    · omega
    · exact decimalSize_pos (.inl rfl)
  · exact decimalSize_pos h

theorem nameRun_pos {c : Char} {cs : List Char} (h : startsName c = true) : 0 < (nameRun (c :: cs)).length := by
  unfold nameRun
  rw [List.takeWhile_cons_of_pos (continuesName_of_startsName h)]
  exact Nat.succ_pos _

theorem punctuator_pos {cs text : List Char} {k : Kind} (h : punctuator? cs = some (text, k)) : 0 < text.length := by
  have hall : ∀ p ∈ punctuators, 0 < p.1.length := by decide
  exact hall _ (List.mem_of_find?_eq_some h)

theorem regex_pos (cs : List Char) : 0 < (regex cs).size := by
  unfold regex
  dsimp only
  split <;> dsimp only <;> omega

/-! No scan takes more than there is. -/

theorem decimalSize_le (point exponent : Bool) (cs : List Char) : decimalSize point exponent cs ≤ cs.length := by
  cases cs with
  | nil => exact Nat.le_refl 0
  | cons c cs =>
    have own := decimalSize_le point exponent cs
    have pointed := decimalSize_le true exponent cs
    have raised := decimalSize_le point true cs
    rw [decimalSize.eq_def, List.length_cons]
    dsimp only
    split
    · omega
    split
    · omega
    split
    · split
      · rename_i rest
        have signed := decimalSize_le point true rest
        rw [List.length_cons]
        omega
      · rename_i rest
        have signed := decimalSize_le point true rest
        rw [List.length_cons]
        omega
      · omega
    · omega
termination_by cs.length

theorem numeralSize_eq (cs : List Char) :
    numeralSize cs =
      if cs.head? = some '0' ∧ (cs.drop 1).head?.any isRadixLetter then
        2 + ((cs.drop 2).takeWhile continuesRadix).length
      else decimalSize false false cs := by
  rw [numeralSize.eq_def]
  rcases cs with _ | ⟨c, _ | ⟨d, cs⟩⟩
  · rfl
  · simp
  · by_cases hc : c = '0'
    · subst hc
      by_cases hd : isRadixLetter d = true <;> simp [hd]
    · simp [hc]

theorem numeralSize_le (cs : List Char) : numeralSize cs ≤ cs.length := by
  have hw : ∀ (p : Char → Bool) (cs : List Char), (cs.takeWhile p).length ≤ cs.length := fun p cs =>
    (List.takeWhile_prefix p).length_le
  rw [numeralSize_eq]
  split
  · rename_i h
    rcases cs with _ | ⟨c, _ | ⟨d, cs⟩⟩
    · simp at h
    · simp at h
    · have := hw continuesRadix cs
      simp only [List.drop_succ_cons, List.drop_zero, List.length_cons]
      omega
  · exact decimalSize_le _ _ _

theorem octalDigits_le (cs : List Char) : (octalDigits cs).length ≤ cs.length := by
  rcases cs with _ | ⟨c, cs⟩
  · exact Nat.le_refl _
  · exact Nat.succ_le_succ (((List.takeWhile_prefix _).trans (List.take_prefix _ _)).length_le)

theorem coded_size (size code : Nat) : (coded size code).size = size := by
  unfold coded
  split <;> rfl

theorem hexEscape_le (n : Nat) (cs : List Char) : (hexEscape n cs).size ≤ cs.length := by
  have := ((List.takeWhile_prefix (l := cs.take n) isHex).trans (List.take_prefix _ _)).length_le
  unfold hexEscape
  dsimp only
  split
  · rename_i h
    rw [coded_size, ← h]
    exact this
  · exact this

theorem unicodeEscape_le (cs : List Char) : (unicodeEscape cs).size ≤ cs.length := by
  unfold unicodeEscape
  split
  · rename_i cs
    have := (List.takeWhile_prefix (l := cs) isHex).length_le
    dsimp only
    split
    · rename_i h
      have hl : (cs.takeWhile isHex).length < cs.length := by
        by_contra hl
        rw [List.drop_of_length_le (by omega)] at h
        simp at h
      rw [coded_size, List.length_cons]
      omega
    · exact Nat.succ_le_succ this
  · exact hexEscape_le _ _

theorem ite_size_le {α : Type} {q : Prop} [Decidable q] {a b : Scan α} {n : Nat} (ha : a.size ≤ n) (hb : b.size ≤ n) :
    (if q then a else b).size ≤ n := by
  by_cases hq : q
  · rwa [if_pos hq]
  · rwa [if_neg hq]

theorem escape_le (cs : List Char) : (escape cs).size ≤ cs.length := by
  rcases cs with _ | ⟨c, cs⟩
  · exact Nat.le_refl _
  · have one : 1 ≤ (c :: cs).length := Nat.succ_pos _
    rw [escape.eq_2]
    refine ite_size_le one (ite_size_le one (ite_size_le one (ite_size_le one (ite_size_le one (ite_size_le one
      (ite_size_le ?octal (ite_size_le ?hex (ite_size_le ?unicode (ite_size_le ?carriage (ite_size_le one one))))))))))
    case octal =>
      dsimp only
      rw [coded_size]
      exact octalDigits_le _
    case hex =>
      rw [List.length_cons, Nat.add_comm]
      exact Nat.add_le_add_left (hexEscape_le 2 cs) 1
    case unicode =>
      rw [List.length_cons, Nat.add_comm]
      exact Nat.add_le_add_left (unicodeEscape_le cs) 1
    case carriage =>
      dsimp only
      split
      · rcases cs with _ | ⟨d, cs⟩
        · contradiction
        · exact Nat.le_add_left 2 _
      · exact one

theorem stringBody_le (quote : Char) (cs : List Char) : (stringBody quote cs).size ≤ cs.length := by
  fun_induction stringBody quote cs with
  | case1 => exact Nat.le_refl _
  | case2 | case3 => exact Nat.succ_pos _
  | case4 cs e => exact Nat.succ_le_succ (escape_le cs)
  | case5 cs e spelled he body h₁ h₂ ih =>
    have he : e.size ≤ cs.length := escape_le cs
    have hb : body.size ≤ (cs.drop e.size).length := ih
    rw [List.length_drop] at hb
    simp only [List.length_cons]
    omega
  | case6 c cs body h₁ h₂ h₃ ih => exact Nat.succ_le_succ ih

theorem regexBody_le (inside : Bool) (cs : List Char) : (regexBody inside cs).1 ≤ cs.length := by
  fun_induction regexBody inside cs with
  | case1 => exact Nat.le_refl _
  | case2 | case5 | case6 => exact Nat.succ_pos _
  | case3 => exact Nat.le_add_left 2 _
  | case4 inside c cs h ih => exact Nat.add_le_add_right ih 2
  | case7 inside c cs h₁ h₂ h₃ h₄ body ih => exact Nat.succ_le_succ ih

theorem regex_le (c : Char) (cs : List Char) : (regex (c :: cs)).size ≤ (c :: cs).length := by
  have hb : (regexBody false ((c :: cs).drop 1)).1 ≤ cs.length := regexBody_le false cs
  have hn := (List.takeWhile_prefix (l := (c :: cs).drop ((regexBody false ((c :: cs).drop 1)).1 + 1)) continuesName).length_le
  rw [List.length_drop] at hn
  unfold regex
  dsimp only
  split
  · dsimp only [nameRun]
    rw [List.length_cons] at hn ⊢
    omega
  · exact Nat.succ_le_succ hb

theorem punctuator_prefix {cs t : List Char} {k : Kind} (h : punctuator? cs = some (t, k)) : t <+: cs := by
  have := List.find?_some h
  exact List.isPrefixOf_iff_prefix.1 this

end Token

namespace Lexer

open Token (Kind)

/-! What a scan is, by the first character. -/

section

open Token (Scan)

/-- The character starts a number, with what follows it. -/
def startsNumber (c : Char) (cs : List Char) : Bool := Text.isDigit c || (c == '.' && cs.head?.any Text.isDigit)

theorem scan_cons (regexAllowed : Bool) (c : Char) (cs : List Char) : scan regexAllowed (c :: cs) =
    if Token.startsName c then
      ⟨(Token.nameRun (c :: cs)).length,
        .ok (Token.kindOfName (String.ofList (Token.nameRun (c :: cs))), Token.nameRun (c :: cs))⟩
    else if startsNumber c cs then
      ⟨(Token.numeral (c :: cs)).size,
        (Token.numeral (c :: cs)).outcome.map fun _ => (.number, (c :: cs).take (Token.numeral (c :: cs)).size)⟩
    else if c = '"' ∨ c = '\'' then
      ⟨1 + (Token.stringBody c cs).size, (Token.stringBody c cs).outcome.map (.string, ·)⟩
    else if c = '/' ∧ regexAllowed then
      ⟨(Token.regex (c :: cs)).size,
        (Token.regex (c :: cs)).outcome.map fun _ => (.regex, (c :: cs).take (Token.regex (c :: cs)).size)⟩
    else
      match Token.punctuator? (c :: cs) with
      | some (text, kind) => ⟨text.length, .ok (kind, text)⟩
      | none              => ⟨1, .error (.unexpected c)⟩ := rfl

end

/-- **A scan takes something, or the text is at its end.** -/
theorem scan_pos (regexAllowed : Bool) (c : Char) (cs : List Char) : 0 < (scan regexAllowed (c :: cs)).size := by
  unfold scan
  split
  · cases ‹c :: cs = []›
  · rename_i h
    cases h
    split
    · exact Token.nameRun_pos ‹_›
    · split
      · rename_i hd
        refine Token.numeralSize_pos ?_
        simp only [Bool.or_eq_true, Bool.and_eq_true, beq_iff_eq] at hd
        exact hd.imp id And.left
      · split
        · dsimp only [Token.Scan.after]
          omega
        · split
          · exact Token.regex_pos _
          · split
            · exact Token.punctuator_pos ‹_›
            · dsimp only
              omega

/-- **A scan takes no more than there is.** -/
theorem scan_le (regexAllowed : Bool) (cs : List Char) : (scan regexAllowed cs).size ≤ cs.length := by
  rcases cs with _ | ⟨c, cs⟩
  · exact Nat.le_refl _
  rw [scan_cons]
  refine Token.ite_size_le (List.takeWhile_prefix _).length_le (Token.ite_size_le (Token.numeralSize_le _)
    (Token.ite_size_le ?string (Token.ite_size_le (Token.regex_le c cs) ?punctuator)))
  case string =>
    rw [List.length_cons, Nat.add_comm]
    exact Nat.succ_le_succ (Token.stringBody_le c cs)
  case punctuator =>
    cases hp : Token.punctuator? (c :: cs) with
    | none   => exact Nat.succ_pos _
    | some p => exact (Token.punctuator_prefix hp).length_le

theorem length_skip (c : Cursor) (n : Nat) : (c.skip n).rest.length = c.rest.length - n := List.length_drop

theorem stepOf_start (start : Cursor) (regexAllowed newline : Bool) (s : Token.Scan (Kind × List Char)) :
    (stepOf start regexAllowed newline s).start = start := by
  unfold stepOf
  split <;> rfl

theorem stepOf_after (start : Cursor) (regexAllowed newline : Bool) (s : Token.Scan (Kind × List Char)) :
    (stepOf start regexAllowed newline s).after.cursor = start.skip s.size := by
  unfold stepOf
  split <;> rfl

theorem length_next_start (l : Lexer) : l.next.start.rest.length ≤ l.cursor.rest.length := by
  have h : l.next.start = l.cursor.skip (Token.trivia l.cursor.rest).size := by
    unfold next
    dsimp only
    split
    · rfl
    · exact stepOf_start _ _ _ _
  rw [h, length_skip]
  omega

/-- The text behind a token is shorter than the text from the token on. -/
theorem length_next_after {l : Lexer} {t : Token} (h : l.next.outcome = .ok t) (hk : t.kind ≠ .eof) :
    l.next.after.cursor.rest.length < l.next.start.rest.length := by
  unfold next at h ⊢
  dsimp only at h ⊢
  split at h
  · cases h
  · rename_i hc
    rw [if_neg hc, stepOf_after]
    cases hs : (l.cursor.skip (Token.trivia l.cursor.rest).size).rest with
    | nil =>
      rw [hs] at h
      unfold stepOf scan at h
      cases h
      exact absurd rfl hk
    | cons c cs =>
      have hp := scan_pos l.regexAllowed c cs
      rw [length_skip, stepOf_start, hs, List.length_cons]
      omega

end Lexer

end Readback
