import Readback.Proofs.Token.Fence
/-!
# Gaps between tokens

Between two tokens there is trivia that the second one ends.  It is read by itself: a comment in it ends in it, and so any
text may stand behind it that is no trivia.
-/
namespace Readback.Token

open Text (endsLine)

/-- Trivia that is closed, and whether a line ends in it. -/
inductive Gap : List Char → Bool → Prop
  | none : Gap [] false
  | space {c : Char} {g : List Char} {nl : Bool} (hc : isSpace c = true) (h : Gap g nl) : Gap (c :: g) (endsLine c || nl)
  | line {body g : List Char} {nl : Bool} (hb : ∀ c ∈ body, endsLine c = false) (hg : g.head?.any endsLine = true)
      (h : Gap g nl) : Gap ('/' :: '/' :: (body ++ g)) nl
  | block {body g : List Char} {nl : Bool} (hb : commentBody? (body ++ ['*', '/']) = some body) (h : Gap g nl) :
      Gap ('/' :: '*' :: (body ++ '*' :: '/' :: g)) (body.any endsLine || nl)

variable {cs g w : List Char} {c : Char} {nl : Bool}

/-! ## The steps of reading trivia -/

/-- The characters open a comment. -/
def opensComment (c : Char) (cs : List Char) : Bool := c == '/' && cs.head?.any fun d => d == '/' || d == '*'

theorem trivia_line (cs : List Char) :
    trivia ('/' :: '/' :: cs) = (trivia (cs.drop (lineBody cs).length)).after ((lineBody cs).length + 2) false :=
  trivia.eq_def _

theorem trivia_block {body : List Char} (h : commentBody? cs = some body) : trivia ('/' :: '*' :: cs) =
    (trivia (cs.drop (body.length + 2))).after (body.length + 4) (body.any endsLine) := by
  refine (trivia.eq_def _).trans ?_
  simp only [h]

theorem trivia_open (h : commentBody? cs = none) : trivia ('/' :: '*' :: cs) = ⟨0, false, true⟩ := by
  refine (trivia.eq_def _).trans ?_
  simp only [h]

theorem trivia_cons (h : opensComment c cs = false) :
    trivia (c :: cs) = if isSpace c then (trivia cs).after 1 (endsLine c) else .none := by
  rw [trivia.eq_def]
  split
  · rename_i he
    cases he
    cases h
  · rename_i he
    cases he
    cases h
  · rename_i he
    cases he
    rfl
  · rename_i he
    cases he

theorem opensComment_of_isSpace (h : isSpace c = true) (cs : List Char) : opensComment c cs = false := by
  have hc : c ≠ '/' := by
    rintro rfl
    cases h
  simp [opensComment, hc]

theorem trivia_space (h : isSpace c = true) (cs : List Char) : trivia (c :: cs) = (trivia cs).after 1 (endsLine c) := by
  rw [trivia_cons (opensComment_of_isSpace h cs), if_pos h]

theorem trivia_nil : trivia [] = .none := by rw [trivia.eq_def]

/-- What a comment is opened by. -/
theorem opensComment_eq_true : opensComment c cs = true ↔ c = '/' ∧ ((∃ r, cs = '/' :: r) ∨ ∃ r, cs = '*' :: r) := by
  rcases cs with _ | ⟨d, cs⟩
  · simp [opensComment]
  · simp [opensComment]

theorem opensComment_eq_false (h₁ : ∀ r, c = '/' → cs = '/' :: r → False) (h₂ : ∀ r, c = '/' → cs = '*' :: r → False) :
    opensComment c cs = false := by
  rw [Bool.eq_false_iff, ne_eq, opensComment_eq_true]
  rintro ⟨hc, ⟨r, hr⟩ | ⟨r, hr⟩⟩
  · exact h₁ r hc hr
  · exact h₂ r hc hr

theorem after_ne_none {n : Nat} {b : Bool} {t : Trivia} (h : 0 < n) : t.after n b ≠ .none := by
  intro he
  have := congrArg Trivia.size he
  simp only [Trivia.after, Trivia.none] at this
  omega

/-- **A text begins with no trivia** when it has neither a blank nor a comment in front. -/
theorem trivia_cons_eq_none : trivia (c :: cs) = .none ↔ isSpace c = false ∧ opensComment c cs = false := by
  constructor
  · intro h
    cases ho : opensComment c cs with
    | true =>
      obtain ⟨rfl, ⟨r, rfl⟩ | ⟨r, rfl⟩⟩ := opensComment_eq_true.1 ho
      · rw [trivia_line] at h
        exact absurd h (after_ne_none (Nat.succ_pos _))
      · cases hb : commentBody? r with
        | none =>
          rw [trivia_open hb] at h
          cases h
        | some body =>
          rw [trivia_block hb] at h
          exact absurd h (after_ne_none (Nat.succ_pos _))
    | false =>
      cases hs : isSpace c with
      | true =>
        rw [trivia_space hs] at h
        exact absurd h (after_ne_none Nat.one_pos)
      | false => exact ⟨rfl, rfl⟩
  · rintro ⟨hs, ho⟩
    rw [trivia_cons ho, hs]
    rfl

/-! ## Comments -/

theorem commentBody_append {body : List Char} (h : commentBody? cs = some body) (w : List Char) :
    commentBody? (cs ++ w) = some body := by
  induction cs using commentBody?.induct generalizing body with
  | case1 cs => exact h
  | case2 c cs hc ih =>
    rw [commentBody?.eq_2 c cs hc] at h
    obtain ⟨b, hb, rfl⟩ := Option.map_eq_some_iff.1 h
    rw [List.cons_append, commentBody?.eq_2, ih hb]
    · rfl
    · rintro r rfl he
      rcases cs with _ | ⟨d, cs⟩
      · cases hb
      · cases he
        exact hc _ rfl rfl
  | case3 => cases h

theorem drop_comment (body w : List Char) : (body ++ '*' :: '/' :: w).drop (body.length + 2) = w := by
  rw [← List.drop_drop, List.drop_left]
  rfl

/-- A comment is its body and what closes it. -/
theorem commentBody_eq_some {body : List Char} (h : commentBody? cs = some body) :
    (∃ w, cs = body ++ '*' :: '/' :: w) ∧ commentBody? (body ++ ['*', '/']) = some body := by
  induction cs using commentBody?.induct generalizing body with
  | case1 cs =>
    cases h
    exact ⟨⟨cs, rfl⟩, rfl⟩
  | case2 c cs hc ih =>
    rw [commentBody?.eq_2 c cs hc] at h
    obtain ⟨b, hb, rfl⟩ := Option.map_eq_some_iff.1 h
    obtain ⟨⟨w, rfl⟩, hb'⟩ := ih hb
    refine ⟨⟨w, rfl⟩, ?_⟩
    rw [List.cons_append, commentBody?.eq_2, hb']
    · rfl
    · rintro r rfl he
      rcases b with _ | ⟨d, b⟩
      · cases he
      · cases he
        exact hc _ rfl rfl
  | case3 => cases h

theorem lineBody_all : ∀ d ∈ lineBody cs, endsLine d = false := by
  intro d hd
  simpa using List.mem_takeWhile_imp hd

theorem lineBody_append {body : List Char} (hb : ∀ d ∈ body, endsLine d = false)
    (hg : ∀ d, g.head? = some d → endsLine d = true) : lineBody (body ++ g) = body := by
  unfold lineBody
  rw [List.takeWhile_append_of_pos (by simpa using hb), List.append_right_eq_self, takeWhile_eq_nil]
  intro d hd
  rw [hg d hd]
  rfl

/-- What is behind a comment does not matter to its body. -/
theorem commentBody_close {body : List Char} (h : commentBody? (body ++ ['*', '/']) = some body) (w : List Char) :
    commentBody? (body ++ '*' :: '/' :: w) = some body := by
  rw [show body ++ '*' :: '/' :: w = (body ++ ['*', '/']) ++ w by simp]
  exact commentBody_append h _

/-! ## Gaps -/

theorem after_after (m n : Nat) (a b : Bool) (t : Trivia) : (t.after n b).after m a = t.after (m + n) (a || b) := by
  simp [Trivia.after, Nat.add_assoc, Bool.or_assoc]

/-- **A gap is read by itself.** -/
theorem Gap.trivia_append (h : Gap g nl) (w : List Char) : trivia (g ++ w) = (trivia w).after g.length nl := by
  induction h with
  | none => simp [Trivia.after]
  | space hc _ ih =>
    rw [List.cons_append, trivia_space hc, ih, after_after, List.length_cons, Nat.add_comm]
  | @line body g nl hb hg _ ih =>
    have hg' : ∀ d, (g ++ w).head? = some d → endsLine d = true := by
      rcases g with _ | ⟨d, g⟩
      · cases hg
      · rintro _ ⟨⟩
        exact hg
    rw [List.cons_append, List.cons_append, List.append_assoc, trivia_line, lineBody_append hb hg', List.drop_left, ih,
      after_after, Bool.false_or]
    simp only [List.length_cons, List.length_append]
    congr 1
    omega
  | @block body g nl hb _ ih =>
    rw [List.cons_append, List.cons_append, List.append_assoc, List.cons_append, List.cons_append,
      trivia_block (commentBody_close hb _), drop_comment, ih, after_after]
    simp only [List.length_cons, List.length_append]
    congr 1
    omega

/-- What is behind the body of a comment that ends with its line is the end of the line, or nothing. -/
theorem endsLine_of_drop_lineBody (h : cs.drop (lineBody cs).length = c :: w) : endsLine c = true := by
  induction cs with
  | nil => cases h
  | cons d cs ih =>
    unfold lineBody at h ih
    rw [List.takeWhile_cons] at h
    split at h
    · exact ih h
    · rename_i hd
      cases h
      simpa using hd

theorem isSpace_of_endsLine (h : endsLine c = true) : isSpace c = true := by
  rw [isSpace, Text.isBlank_of_endsLine h, Bool.true_or]

/-- The trivia behind a comment that ends with its line begin with the end of the line. -/
theorem endsLine_head_trivia (h : cs.drop (lineBody cs).length ≠ []) :
    ((cs.drop (lineBody cs).length).take (trivia (cs.drop (lineBody cs).length)).size).head?.any endsLine = true := by
  cases hd : cs.drop (lineBody cs).length with
  | nil => exact absurd hd h
  | cons d w =>
    have he := endsLine_of_drop_lineBody hd
    rw [trivia_space (isSpace_of_endsLine he)]
    simp [Trivia.after, he, Nat.add_comm 1]

/-- **Trivia in front of a token is a gap**, and there is none behind it. -/
theorem gap_of_trivia (h : (trivia cs).openComment = false) :
    trivia (cs.drop (trivia cs).size) = .none ∧
      (cs.drop (trivia cs).size ≠ [] → Gap (cs.take (trivia cs).size) (trivia cs).newline) := by
  induction cs using trivia.induct with
  | case1 cs n ih =>
    rw [trivia_line] at h ⊢
    obtain ⟨ih₁, ih₂⟩ := ih h
    have hn : ((trivia (cs.drop n)).after (n + 2) false).size = n + (trivia (cs.drop n)).size + 2 := by
      simp only [Trivia.after]
      omega
    rw [hn, List.drop_succ_cons, List.drop_succ_cons, ← List.drop_drop, List.take_succ_cons, List.take_succ_cons,
      List.take_add]
    refine ⟨ih₁, fun hr => ?_⟩
    have hb : cs.take n = lineBody cs := (List.prefix_iff_eq_take.1 (List.takeWhile_prefix _)).symm
    have hd : cs.drop n ≠ [] := fun hd => hr (by rw [hd, List.drop_nil])
    rw [hb]
    exact .line lineBody_all (endsLine_head_trivia hd) (by simpa [Trivia.after] using ih₂ hr)
  | case2 cs body hb ih =>
    rw [trivia_block hb] at h ⊢
    obtain ⟨ih₁, ih₂⟩ := ih h
    obtain ⟨⟨w, rfl⟩, hb'⟩ := commentBody_eq_some hb
    rw [drop_comment] at ih₁ ih₂ ⊢
    have hn : ((trivia w).after (body.length + 4) (body.any endsLine)).size = body.length + (2 + (trivia w).size) + 2 := by
      simp only [Trivia.after]
      omega
    rw [hn, List.drop_succ_cons, List.drop_succ_cons, List.take_succ_cons, List.take_succ_cons, List.take_add,
      ← List.drop_drop, ← List.drop_drop, List.drop_left, List.take_left, List.take_add]
    exact ⟨ih₁, fun hr => .block hb' (ih₂ hr)⟩
  | case3 cs hb =>
    rw [trivia_open hb] at h
    cases h
  | case4 c cs h₁ h₂ hs ih =>
    rw [trivia_space hs] at h ⊢
    obtain ⟨ih₁, ih₂⟩ := ih h
    simp only [Trivia.after, Nat.add_comm 1, List.drop_succ_cons, List.take_succ_cons]
    exact ⟨ih₁, fun hr => .space hs (ih₂ hr)⟩
  | case5 c cs h₁ h₂ hs =>
    have hn := trivia_cons_eq_none.2 ⟨by simpa using hs, opensComment_eq_false h₁ h₂⟩
    rw [hn]
    exact ⟨hn, fun _ => .none⟩
  | case6 =>
    rw [trivia_nil]
    exact ⟨trivia_nil, fun _ => .none⟩

end Readback.Token
