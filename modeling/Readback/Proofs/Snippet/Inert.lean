import Readback.Proofs.Token.Front
/-!
# What says nothing

Text of nothing but semicolons, blanks and comments.  It may be trimmed, and it may not: the blanks at either end are
trivia, too, and none of them closes a comment.
-/
namespace Readback

namespace Token

open Text (endsLine isBlank)

/-- There is nothing but trivia. -/
def Bare (cs : List Char) : Prop := (trivia cs).openComment = false ∧ cs.drop (trivia cs).size = []

/-- There is nothing but semicolons and trivia. -/
inductive Inert : List Char → Prop
  | bare {cs : List Char} (h : Bare cs) : Inert cs
  | semicolon {g r : List Char} {newline : Bool} (hg : Gap g newline) (h : Inert r) : Inert (g ++ ';' :: r)

variable {cs : List Char} {c : Char}

theorem isSpace_of_isBlank (h : isBlank c = true) : isSpace c = true := by
  rw [isSpace, h, Bool.true_or]

theorem bare_nil : Bare [] := by
  unfold Bare
  rw [trivia_nil]
  exact ⟨rfl, rfl⟩

/-- A text is as bare as what is left of it behind a piece of trivia. -/
theorem bare_of_after {n : Nat} {newline : Bool} (h : trivia cs = (trivia (cs.drop n)).after n newline) :
    Bare cs ↔ Bare (cs.drop n) := by
  unfold Bare
  rw [h, List.drop_drop]
  rfl

theorem bare_cons (h : isSpace c = true) : Bare (c :: cs) ↔ Bare cs := @bare_of_after (c :: cs) 1 _ (trivia_space h cs)

theorem bare_line : Bare ('/' :: '/' :: cs) ↔ Bare (cs.drop (lineBody cs).length) :=
  @bare_of_after ('/' :: '/' :: cs) _ _ (trivia_line cs)

theorem bare_block {body : List Char} (h : commentBody? cs = some body) :
    Bare ('/' :: '*' :: cs) ↔ Bare (cs.drop (body.length + 2)) :=
  @bare_of_after ('/' :: '*' :: cs) _ _ (trivia_block h)

theorem not_bare_open (h : commentBody? cs = none) : ¬ Bare ('/' :: '*' :: cs) := by
  unfold Bare
  rw [trivia_open h]
  exact fun h => nomatch h.1

theorem not_bare (h₁ : isSpace c = false) (h₂ : opensComment c cs = false) : ¬ Bare (c :: cs) := by
  unfold Bare
  rw [trivia_cons_eq_none.2 ⟨h₁, h₂⟩]
  exact fun h => nomatch h.2

/-- **Induction over trivia up to the end of a text.**  What is behind the body of a comment that ends with its line is the end
of the line, or nothing. -/
theorem bare_induction {P : List Char → Prop}
    (line : ∀ {body r : List Char}, (∀ c ∈ body, endsLine c = false) → (∀ c, r.head? = some c → endsLine c = true) → P r →
      P ('/' :: '/' :: (body ++ r)))
    (block : ∀ {body r : List Char}, commentBody? (body ++ ['*', '/']) = some body → P r →
      P ('/' :: '*' :: (body ++ '*' :: '/' :: r)))
    (space : ∀ {c : Char} {r : List Char}, isSpace c = true → P r → P (c :: r)) (nil : P []) (h : Bare cs) : P cs := by
  induction cs using trivia.induct with
  | case1 cs n ih =>
    have hcs : lineBody cs ++ cs.drop n = cs := List.prefix_iff_eq_append.1 (List.takeWhile_prefix _)
    rw [← hcs]
    refine line lineBody_all (fun c hc => ?_) (ih (bare_line.1 h))
    obtain ⟨w, hw⟩ := List.head?_eq_some_iff.1 hc
    exact endsLine_of_drop_lineBody hw
  | case2 cs body hb ih =>
    have ih := ih ((bare_block hb).1 h)
    obtain ⟨⟨w, rfl⟩, hb'⟩ := commentBody_eq_some hb
    rw [drop_comment] at ih
    exact block hb' ih
  | case3 cs hb => exact absurd h (not_bare_open hb)
  | case4 c cs h₁ h₂ hs ih => exact space hs (ih ((bare_cons hs).1 h))
  | case5 c cs h₁ h₂ hs => exact absurd h (not_bare (by simpa using hs) (opensComment_eq_false h₁ h₂))
  | case6 => exact nil

/-- A line that ends makes a gap of trivia. -/
theorem gap_of_bare (h : Bare cs) : ∃ newline, Gap (cs ++ ['\n']) newline := by
  refine bare_induction (P := fun cs => ∃ newline, Gap (cs ++ ['\n']) newline) ?line ?block ?space ?nil h
  case line =>
    rintro body r hb hr ⟨newline, hg⟩
    have hends : (r ++ ['\n']).head?.any endsLine = true := by
      cases r with
      | nil => rfl
      | cons d w => exact hr d rfl
    rw [List.cons_append, List.cons_append, List.append_assoc]
    exact ⟨newline, .line hb hends hg⟩
  case block =>
    rintro body r hb ⟨newline, hg⟩
    rw [List.cons_append, List.cons_append, List.append_assoc, List.cons_append, List.cons_append]
    exact ⟨_, .block hb hg⟩
  case space =>
    rintro c r hs ⟨newline, hg⟩
    exact ⟨_, .space hs hg⟩
  case nil => exact ⟨_, .space (c := '\n') (by decide) .none⟩

/-! ## Blanks in front -/

theorem inert_cons (h : isBlank c = true) : Inert (c :: cs) ↔ Inert cs := by
  have hs := isSpace_of_isBlank h
  constructor
  · generalize hx : c :: cs = x
    intro hi
    cases hi with
    | bare hb => exact .bare ((bare_cons hs).1 (hx ▸ hb))
    | semicolon hg hr =>
      cases hg with
      | none =>
        cases hx
        cases h
      | space _ hg' =>
        cases hx
        exact .semicolon hg' hr
      | line =>
        cases hx
        cases h
      | block =>
        cases hx
        cases h
  · intro hi
    cases hi with
    | bare hb => exact .bare ((bare_cons hs).2 hb)
    | semicolon hg hr => exact .semicolon (.space hs hg) hr

theorem inert_trimStart : Inert (Text.trimStart cs) ↔ Inert cs := by
  unfold Text.trimStart
  induction cs with
  | nil => rfl
  | cons c cs ih =>
    by_cases h : isBlank c = true
    · rw [List.dropWhile_cons_of_pos h, ih, inert_cons h]
    · rw [List.dropWhile_cons_of_neg h]

/-! ## Blanks behind -/

/-- A blank does not close a comment. -/
theorem commentBody_append_blank (h : isBlank c = true) : commentBody? (cs ++ [c]) = commentBody? cs := by
  induction cs using commentBody?.induct with
  | case1 cs => rfl
  | case2 d cs hd ih =>
    rw [List.cons_append, commentBody?.eq_2 d cs hd, commentBody?.eq_2, ih]
    rintro r rfl he
    rcases cs with _ | ⟨e, cs⟩
    · cases he
      cases h
    · cases he
      exact hd _ rfl rfl
  | case3 =>
    rw [List.nil_append, commentBody?.eq_2]
    · rfl
    · intro _ _ he
      cases he

theorem opensComment_append_blank (h : isBlank c = true) (d : Char) : opensComment d (cs ++ [c]) = opensComment d cs := by
  cases cs with
  | nil =>
    have h₁ : c ≠ '/' := by
      rintro rfl
      cases h
    have h₂ : c ≠ '*' := by
      rintro rfl
      cases h
    simp [opensComment, h₁, h₂]
  | cons e cs => rfl

theorem bare_append_line (h : isBlank c = true) (ih : Bare (cs.drop (lineBody cs).length ++ [c]) ↔
    Bare (cs.drop (lineBody cs).length)) : Bare ('/' :: '/' :: (cs ++ [c])) ↔ Bare ('/' :: '/' :: cs) := by
  rw [bare_line, bare_line]
  have hcs : lineBody cs ++ cs.drop (lineBody cs).length = cs := List.prefix_iff_eq_append.1 (List.takeWhile_prefix _)
  generalize hd : cs.drop (lineBody cs).length = d at *
  rcases d with _ | ⟨d, w⟩
  · -- The comment ends with the text, or with the blank.
    rw [List.append_nil] at hcs
    refine iff_of_true ?_ bare_nil
    cases hc : endsLine c with
    | true =>
      rw [lineBody_append (hcs ▸ lineBody_all) (by simpa using hc), List.drop_left]
      exact (bare_cons (isSpace_of_isBlank h)).2 bare_nil
    | false =>
      have hall : lineBody (cs ++ [c]) = cs ++ [c] := by
        unfold lineBody
        rw [List.takeWhile_eq_self_iff]
        intro d hd
        rcases List.mem_append.1 hd with hd | hd
        · simpa using lineBody_all d (hcs.symm ▸ hd)
        · rw [List.mem_singleton.1 hd, hc]
          rfl
      rw [hall, List.drop_length]
      exact bare_nil
  · have hb : lineBody (cs ++ [c]) = lineBody cs := by
      conv_lhs => rw [← hcs, List.append_assoc]
      exact lineBody_append lineBody_all (by rintro _ ⟨⟩; exact endsLine_of_drop_lineBody hd)
    have hl : (lineBody cs).length ≤ cs.length := (List.takeWhile_prefix _).length_le
    rw [hb, ← ih, ← hd, List.drop_append_of_le_length hl]

theorem bare_append (h : isBlank c = true) : Bare (cs ++ [c]) ↔ Bare cs := by
  induction cs using trivia.induct with
  | case1 cs n ih => exact bare_append_line h ih
  | case2 cs body hb ih =>
    obtain ⟨⟨w, hw⟩, -⟩ := commentBody_eq_some hb
    have hl : body.length + 2 ≤ cs.length := by
      rw [hw, List.length_append]
      simp
    rw [List.cons_append, List.cons_append, bare_block hb, bare_block (commentBody_append hb [c]),
      List.drop_append_of_le_length hl]
    exact ih
  | case3 cs hb => exact iff_of_false (not_bare_open ((commentBody_append_blank h).trans hb)) (not_bare_open hb)
  | case4 d cs h₁ h₂ hd ih =>
    rw [List.cons_append, bare_cons hd, bare_cons hd]
    exact ih
  | case5 d cs h₁ h₂ hd =>
    have hd : isSpace d = false := by simpa using hd
    have ho := opensComment_eq_false h₁ h₂
    exact iff_of_false (not_bare hd ((opensComment_append_blank h d).trans ho)) (not_bare hd ho)
  | case6 => exact iff_of_true ((bare_cons (isSpace_of_isBlank h)).2 bare_nil) bare_nil

theorem inert_append (h : isBlank c = true) : Inert (cs ++ [c]) ↔ Inert cs := by
  constructor
  · generalize hx : cs ++ [c] = x
    intro hi
    induction hi generalizing cs with
    | bare hb =>
      subst hx
      exact .bare ((bare_append h).1 hb)
    | @semicolon g r nl hg hr ih =>
      rcases List.eq_nil_or_concat r with rfl | ⟨r', d, rfl⟩
      · obtain ⟨-, hc⟩ := List.append_inj' hx rfl
        cases hc
        cases h
      · rw [List.concat_eq_append] at hx ih
        rw [← List.cons_append, ← List.append_assoc] at hx
        obtain ⟨rfl, hc⟩ := List.append_inj' hx rfl
        cases hc
        exact .semicolon hg (ih rfl)
  · intro hi
    induction hi with
    | bare hb => exact .bare ((bare_append h).2 hb)
    | semicolon hg _ ih =>
      rw [List.append_assoc, List.cons_append]
      exact .semicolon hg ih

theorem inert_trimEnd : Inert (Text.trimEnd cs) ↔ Inert cs := by
  unfold Text.trimEnd
  generalize hr : cs.reverse = r
  obtain rfl : cs = r.reverse := by rw [← hr, List.reverse_reverse]
  clear hr
  induction r with
  | nil => rfl
  | cons c r ih =>
    by_cases h : isBlank c = true
    · rw [List.dropWhile_cons_of_pos h, ih, List.reverse_cons, inert_append h]
    · rw [List.dropWhile_cons_of_neg h]

/-- **Trimming does not matter** to text that says nothing. -/
theorem inert_trim : Inert (Text.trim cs) ↔ Inert cs := by
  rw [Text.trim, inert_trimEnd, inert_trimStart]

end Token

/-! ## The tokens -/

namespace Lexer

open Token (Bare Inert Gap)

/-- The tokens up to the end are semicolons. -/
inductive Semicolons : Lexer → Prop
  | done {l : Lexer} {t : Token} (h : l.next.outcome = .ok t) (hk : t.kind = .eof) : Semicolons l
  | more {l : Lexer} {t : Token} (h : l.next.outcome = .ok t) (hk : t.kind = .semicolon) (h' : Semicolons l.next.after) :
      Semicolons l

/-- **A text is at its end when there is nothing but trivia.** -/
theorem eof_iff_bare {l : Lexer} : (∃ t, l.next.outcome = .ok t ∧ t.kind = .eof) ↔ Bare l.cursor.rest := by
  unfold next Bare
  dsimp only
  constructor
  · rintro ⟨t, h, hk⟩
    split at h
    · cases h
    · rename_i hc
      refine ⟨by simpa using hc, ?_⟩
      by_contra hne
      unfold stepOf at h
      split at h
      · rename_i hs
        cases h
        exact scan_ne_eof hs hne hk
      · cases h
  · rintro ⟨h₁, h₂⟩
    rw [h₁, if_neg (by simp)]
    have hr : (l.cursor.skip (Token.trivia l.cursor.rest).size).rest = [] := h₂
    rw [hr]
    exact ⟨_, rfl, rfl⟩

theorem semicolons_iff_inert {l : Lexer} : Semicolons l ↔ Inert l.cursor.rest := by
  constructor
  · intro h
    induction h with
    | done h hk => exact .bare (eof_iff_bare.1 ⟨_, h, hk⟩)
    | @more l t h hk _ ih =>
      obtain ⟨g, s, x, v, hf⟩ := front_of_next h (by rw [hk]; nofun)
      have hall : ∀ p ∈ Token.punctuators, p.2 = .semicolon → p.1 = [';'] := by decide
      obtain rfl : s = [';'] := hall _ (hf.punctuator (by rw [hk]; rfl)).2 hk
      rw [hf.next] at ih
      rw [hf.rest]
      exact .semicolon hf.gap ih
  · obtain ⟨⟨pos, rest⟩, regexAllowed⟩ := l
    dsimp only
    intro h
    induction h generalizing pos regexAllowed with
    | bare hb =>
      obtain ⟨t, ht, hk⟩ := eof_iff_bare.2 (show Bare (Lexer.mk ⟨pos, _⟩ regexAllowed).cursor.rest from hb)
      exact .done ht hk
    | @semicolon g r newline hg _ ih =>
      have hf := @front_of_mark ⟨⟨pos, g ++ ';' :: r⟩, regexAllowed⟩ g r newline ';' .semicolon (by decide) rfl hg
      exact .more (congrArg Step.outcome hf.next) rfl (by rw [hf.next]; exact ih _ _)

theorem semicolons_iff_tokens_lt {n : Nat} {l : Lexer} (hn : l.cursor.rest.length < n) :
    Semicolons l ↔ ∃ (semis : List Token) (e : Token), l.tokens n = semis.map .ok ++ [.ok e] ∧
      (∀ t ∈ semis, t.kind = .semicolon) ∧ e.kind = .eof := by
  induction n generalizing l with
  | zero => cases hn
  | succ n ih =>
    unfold tokens
    dsimp only
    cases ho : l.next.outcome with
    | error d =>
      refine iff_of_false ?_ ?_
      · intro h
        cases h with
        | done h => cases ho.symm.trans h
        | more h => cases ho.symm.trans h
      · rintro ⟨semis, e, h, -⟩
        cases semis <;> cases h
    | ok t =>
      by_cases hk : t.kind = .eof
      · dsimp only
        rw [if_pos hk]
        exact iff_of_true (.done ho hk) ⟨[], t, rfl, List.forall_mem_nil _, hk⟩
      · dsimp only
        rw [if_neg hk]
        have h₁ := length_next_after ho hk
        have h₂ := length_next_start l
        have ih := @ih l.next.after (by omega)
        constructor
        · intro h
          cases h with
          | done h hk' =>
            cases ho.symm.trans h
            exact absurd hk' hk
          | more h hs h' =>
            cases ho.symm.trans h
            obtain ⟨semis, e, he, hall, hke⟩ := ih.1 h'
            exact ⟨t :: semis, e, by rw [he]; rfl, by simpa [hs] using hall, hke⟩
        · rintro ⟨semis, e, h, hall, hke⟩
          rcases semis with _ | ⟨u, semis⟩
          · obtain ⟨he, -⟩ := List.cons.inj h
            cases he
            exact absurd hke hk
          · obtain ⟨hu, ht⟩ := List.cons.inj h
            cases hu
            exact .more ho (hall _ List.mem_cons_self)
              (ih.2 ⟨semis, e, ht, fun t ht => hall t (List.mem_cons_of_mem _ ht), hke⟩)

/-- All tokens that are left are semicolons, up to the end. -/
theorem semicolons_iff_tokens {l : Lexer} :
    Semicolons l ↔ ∃ (semis : List Token) (e : Token), l.allTokens = semis.map .ok ++ [.ok e] ∧
      (∀ t ∈ semis, t.kind = .semicolon) ∧ e.kind = .eof :=
  semicolons_iff_tokens_lt (Nat.lt_succ_self _)

end Lexer

end Readback
