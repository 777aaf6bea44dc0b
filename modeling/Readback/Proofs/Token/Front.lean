import Readback.Proofs.Token.Gap
/-!
# The token in front of a place

In front of a place that is not at the end there is a gap, and then the text of a token.
-/
namespace Readback.Lexer

open Token (Kind Gap trivia)

/-- A gap, the text of a token, and what is behind it; and what the token is. -/
structure Front (l : Lexer) (g t x : List Char) (k : Kind) (v : List Char) (newline : Bool) : Prop where
  rest : l.cursor.rest = g ++ (t ++ x)
  gap  : Gap g newline
  bare : trivia (t ++ x) = .none
  some : t ≠ []
  scan : scan l.regexAllowed (t ++ x) = ⟨t.length, .ok (k, v)⟩

/-- The place behind a piece of text. -/
theorem skip_append {c : Cursor} {t x : List Char} (h : c.rest = t ++ x) :
    c.skip t.length = ⟨c.pos + Text.byteLength t, x⟩ := by
  unfold Cursor.skip
  rw [h, List.take_left, List.drop_left]

/-- **What is in front of a place is what is read there.** -/
theorem Front.next {l : Lexer} {g t x v : List Char} {k : Kind} {newline : Bool} (h : l.Front g t x k v newline) :
    l.next =
      ⟨.ok ⟨k, String.ofList v, ⟨l.cursor.pos + Text.byteLength g, l.cursor.pos + Text.byteLength g + Text.byteLength t⟩,
        newline⟩, ⟨l.cursor.pos + Text.byteLength g, t ++ x⟩,
        ⟨⟨l.cursor.pos + Text.byteLength g + Text.byteLength t, x⟩, allowsRegex l.regexAllowed k⟩⟩ := by
  have ht : trivia l.cursor.rest = ⟨g.length, newline, false⟩ := by
    rw [h.rest, h.gap.trivia_append, h.bare]
    simp [Token.Trivia.after, Token.Trivia.none]
  have hs : (⟨l.cursor.pos + Text.byteLength g, t ++ x⟩ : Cursor).skip t.length =
      ⟨l.cursor.pos + Text.byteLength g + Text.byteLength t, x⟩ := skip_append rfl
  unfold Lexer.next
  dsimp only
  rw [ht, if_neg (by simp)]
  dsimp only
  rw [skip_append h.rest, h.scan]
  unfold stepOf
  dsimp only [Cursor.span]
  rw [hs]

/-- A scan splits the text. -/
theorem exists_text_of_scan {regexAllowed : Bool} {cs v : List Char} {k : Kind} (hcs : cs ≠ [])
    (h : (scan regexAllowed cs).outcome = .ok (k, v)) :
    ∃ t x, cs = t ++ x ∧ t ≠ [] ∧ scan regexAllowed cs = ⟨t.length, .ok (k, v)⟩ := by
  obtain ⟨c, r, rfl⟩ := List.exists_cons_of_ne_nil hcs
  have hp := scan_pos regexAllowed c r
  have hl := scan_le regexAllowed (c :: r)
  refine ⟨(c :: r).take (scan regexAllowed (c :: r)).size, _, (List.take_append_drop _ _).symm, ?_, ?_⟩
  · rw [List.ne_nil_iff_length_pos, List.length_take]
    omega
  · exact Token.Scan.eq_of (by rw [List.length_take]; omega) h

/-- **What is read at a place is in front of it**, if that is not the end of the text. -/
theorem front_of_next {l : Lexer} {t : Token} (h : l.next.outcome = .ok t) (hk : t.kind ≠ .eof) :
    ∃ g s x v, l.Front g s x t.kind v t.newlineBefore := by
  unfold Lexer.next at h
  dsimp only at h
  split at h
  · cases h
  rename_i hc
  obtain ⟨hbare, hgap⟩ := Token.gap_of_trivia (by simpa using hc)
  generalize hn : (trivia l.cursor.rest).size = n at *
  rw [show (l.cursor.skip n).rest = l.cursor.rest.drop n from rfl] at h
  unfold stepOf at h
  cases ho : (scan l.regexAllowed (l.cursor.rest.drop n)).outcome with
  | error d =>
    rw [ho] at h
    cases h
  | ok p =>
    rw [ho] at h
    cases h
    have hne : l.cursor.rest.drop n ≠ [] := by
      intro he
      rw [he] at ho
      cases ho
      exact hk rfl
    obtain ⟨t, x, he, ht, hscan⟩ := exists_text_of_scan hne ho
    refine ⟨l.cursor.rest.take n, t, x, p.2, ?_, hgap hne, ?_, ht, ?_⟩
    · rw [← he, List.take_append_drop]
    · rw [← he, hbare]
    · rw [← he, hscan]

/-- At the end of a text there is nothing to read. -/
theorem next_of_nil {l : Lexer} (h : l.cursor.rest = []) : l.next = ⟨.ok ⟨.eof, "", ⟨l.cursor.pos, l.cursor.pos⟩, false⟩,
    l.cursor, l⟩ := by
  obtain ⟨⟨pos, rest⟩, regexAllowed⟩ := l
  cases h
  unfold Lexer.next
  dsimp only
  rw [Token.trivia_nil]
  rfl

/-! ## The list of tokens -/

theorem Front.tokens {l : Lexer} {g t x v : List Char} {k : Kind} {newline : Bool} (h : l.Front g t x k v newline)
    (hk : k ≠ .eof) (n : Nat) : l.tokens (n + 1) =
      .ok ⟨k, String.ofList v, ⟨l.cursor.pos + Text.byteLength g, l.cursor.pos + Text.byteLength g + Text.byteLength t⟩,
        newline⟩ ::
        Lexer.tokens n ⟨⟨l.cursor.pos + Text.byteLength g + Text.byteLength t, x⟩, allowsRegex l.regexAllowed k⟩ := by
  rw [Lexer.tokens, h.next]
  exact if_neg hk

theorem tokens_of_nil {l : Lexer} (h : l.cursor.rest = []) (n : Nat) :
    l.tokens (n + 1) = [.ok ⟨.eof, "", ⟨l.cursor.pos, l.cursor.pos⟩, false⟩] := by
  rw [Lexer.tokens, next_of_nil h]
  rfl

/-! ## Punctuators and slashes -/

/-- The kinds of the tokens that are no punctuators. -/
def isWord : Kind → Bool
  | .identifier | .number | .string | .regex | .keyword _ | .eof => true
  | _ => false

theorem isWord_kindOfName (name : String) :
    isWord (Token.kindOfName name) = true ∧ Token.kindOfName name ≠ .eof := by
  unfold Token.kindOfName
  split
  · exact ⟨rfl, nofun⟩
  · exact ⟨rfl, nofun⟩

theorem isWord_punctuators : ∀ p ∈ Token.punctuators, isWord p.2 = false := by decide

/-- **A token is a word or is spelled as it is in the table**, and there is none only at the end. -/
theorem scan_kind {regexAllowed : Bool} {c : Char} {cs v : List Char} {k : Kind}
    (h : (scan regexAllowed (c :: cs)).outcome = .ok (k, v)) :
    (isWord k = true ∧ k ≠ .eof) ∨
      (Token.punctuator? (c :: cs) = some (v, k) ∧ (scan regexAllowed (c :: cs)).size = v.length) := by
  rw [scan_cons] at h ⊢
  by_cases h₁ : Token.startsName c = true
  · rw [if_pos h₁] at h
    cases h
    exact .inl (isWord_kindOfName _)
  rw [if_neg h₁] at h ⊢
  by_cases h₂ : startsNumber c cs = true
  · rw [if_pos h₂] at h
    obtain ⟨_, -, he⟩ := Token.map_eq_ok h
    cases he
    exact .inl ⟨rfl, nofun⟩
  rw [if_neg h₂] at h ⊢
  by_cases h₃ : c = '"' ∨ c = '\''
  · rw [if_pos h₃] at h
    obtain ⟨_, -, he⟩ := Token.map_eq_ok h
    cases he
    exact .inl ⟨rfl, nofun⟩
  rw [if_neg h₃] at h ⊢
  by_cases h₄ : c = '/' ∧ regexAllowed = true
  · rw [if_pos h₄] at h
    obtain ⟨_, -, he⟩ := Token.map_eq_ok h
    cases he
    exact .inl ⟨rfl, nofun⟩
  rw [if_neg h₄] at h ⊢
  cases hp : Token.punctuator? (c :: cs) with
  | none =>
    rw [hp] at h
    cases h
  | some p =>
    rw [hp] at h
    cases h
    exact .inr ⟨rfl, rfl⟩

theorem scan_ne_eof {regexAllowed : Bool} {cs v : List Char} {k : Kind} (h : (scan regexAllowed cs).outcome = .ok (k, v))
    (hcs : cs ≠ []) : k ≠ .eof := by
  obtain ⟨c, r, rfl⟩ := List.exists_cons_of_ne_nil hcs
  rcases scan_kind h with ⟨-, hk⟩ | ⟨hp, -⟩
  · exact hk
  · rintro rfl
    cases isWord_punctuators _ (List.mem_of_find?_eq_some hp)

theorem Front.punctuator {l : Lexer} {g t x v : List Char} {k : Kind} {newline : Bool} (h : l.Front g t x k v newline)
    (hk : isWord k = false) : v = t ∧ (t, k) ∈ Token.punctuators := by
  obtain ⟨c, s, rfl⟩ := List.exists_cons_of_ne_nil h.some
  rcases scan_kind (congrArg Token.Scan.outcome h.scan) with ⟨hw, -⟩ | ⟨hp, hs⟩
  · rw [hw] at hk
    cases hk
  · have hl : v.length = (c :: s).length := hs.symm.trans (congrArg Token.Scan.size h.scan)
    have ht : v = c :: s := (List.prefix_of_prefix_length_le (Token.punctuator_prefix hp) (List.prefix_append (c :: s) x)
      (Nat.le_of_eq hl)).eq_of_length hl
    exact ⟨ht, ht ▸ List.mem_of_find?_eq_some hp⟩

/-- The punctuators of one character with which no longer one begins. -/
def marks : List (Char × Kind) :=
  [('(', .lParen), (')', .rParen), ('[', .lBracket), (']', .rBracket), ('\x7b', .lBrace), ('\x7d', .rBrace),
   (',', .comma), (':', .colon), (';', .semicolon)]

/-- A mark is a token, whatever is behind it. -/
theorem scan_mark {c : Char} {k : Kind} (h : (c, k) ∈ marks) (regexAllowed : Bool) (x : List Char) :
    scan regexAllowed (c :: x) = ⟨1, .ok (k, [c])⟩ := by
  have hall : ∀ p ∈ marks, Token.startsName p.1 = false ∧ Text.isDigit p.1 = false ∧ p.1 ≠ '.' ∧
      ¬ (p.1 = '"' ∨ p.1 = '\'') ∧ p.1 ≠ '/' := by decide
  obtain ⟨h₁, h₂, h₃, h₄, h₅⟩ := hall _ h
  have hp : Token.punctuator? (c :: x) = .some ([c], k) := by
    simp only [marks, List.mem_cons, List.not_mem_nil, or_false, Prod.mk.injEq] at h
    rcases h with ⟨rfl, rfl⟩ | ⟨rfl, rfl⟩ | ⟨rfl, rfl⟩ | ⟨rfl, rfl⟩ | ⟨rfl, rfl⟩ | ⟨rfl, rfl⟩ | ⟨rfl, rfl⟩ | ⟨rfl, rfl⟩ |
      ⟨rfl, rfl⟩ <;> rfl
  rw [scan_cons, if_neg (by simp [h₁]), if_neg (by simp [startsNumber, h₂, h₃]), if_neg h₄, if_neg fun h => h₅ h.1, hp]
  rfl

theorem front_of_mark {l : Lexer} {g x : List Char} {newline : Bool} {c : Char} {k : Kind} (h : (c, k) ∈ marks)
    (hr : l.cursor.rest = g ++ c :: x) (hg : Gap g newline) : l.Front g [c] x k [c] newline := by
  have hall : ∀ p ∈ marks, Token.isSpace p.1 = false ∧ p.1 ≠ '/' := by decide
  obtain ⟨h₁, h₂⟩ := hall _ h
  exact ⟨hr, hg, Token.trivia_cons_eq_none.2 ⟨h₁, by simp [Token.opensComment, h₂]⟩, nofun, scan_mark h _ x⟩

/-- A regular expression has two slashes, and an equals sign that follows the first is in its body. -/
theorem regex_size {cs : List Char} (h : (Token.regex cs).outcome = .ok ()) :
    2 ≤ (Token.regex cs).size ∧ ((cs.drop 1).head? = some '=' → 3 ≤ (Token.regex cs).size) := by
  obtain ⟨n, hn⟩ := Token.regexBody_of_regex h
  rw [Token.regex_eq hn]
  dsimp only
  have h₁ : 0 < n := by simpa only [hn] using Token.regexBody_pos (congrArg Prod.snd hn)
  refine ⟨by omega, fun he => ?_⟩
  obtain ⟨r, hr⟩ := List.head?_eq_some_iff.1 he
  rw [hr, Token.regexBody_cons (by decide), if_neg (by simp), if_neg (by decide)] at hn
  obtain ⟨h₃, h₄⟩ := Prod.mk.inj hn
  have h₂ := Token.regexBody_pos h₄
  omega

/-- A slash by itself divides. -/
theorem Front.slash {l : Lexer} {g x v : List Char} {k : Kind} {newline : Bool} (h : l.Front g ['/'] x k v newline) :
    k.endsOperand = false := by
  have ho := congrArg Token.Scan.outcome h.scan
  have hs := congrArg Token.Scan.size h.scan
  by_cases hk : isWord k = true
  · -- The scan would be one of a regular expression, which is longer.
    rw [List.singleton_append, scan_cons, if_neg (by decide), if_neg (by simp [startsNumber, Text.isDigit]),
      if_neg (by decide)] at ho hs
    by_cases hr : '/' = '/' ∧ l.regexAllowed = true
    · rw [if_pos hr] at ho hs
      obtain ⟨_, hw, -⟩ := Token.map_eq_ok ho
      have h₂ : (Token.regex ('/' :: x)).size = 1 := hs
      have := (regex_size hw).1
      omega
    · rw [if_neg hr] at ho
      cases hp : Token.punctuator? ('/' :: x) with
      | none =>
        rw [hp] at ho
        cases ho
      | some p =>
        rw [hp] at ho
        cases ho
        rw [isWord_punctuators _ (List.mem_of_find?_eq_some hp)] at hk
        cases hk
  · have hall : ∀ p ∈ Token.punctuators, p.1 = ['/'] → p.2.endsOperand = false := by decide
    exact hall _ (h.punctuator (by simpa using hk)).2 rfl

/-! ## Regular expressions -/

/-- What is read at a place as a regular expression. -/
theorem regexAt_of_regex {start : Cursor} {t x : List Char} (hr : start.rest = t ++ x)
    (h : Token.regex (t ++ x) = ⟨t.length, .ok ()⟩) (regexAllowed newline : Bool) :
    regexAt start regexAllowed newline =
      ⟨.ok ⟨.regex, String.ofList t, ⟨start.pos, start.pos + Text.byteLength t⟩, newline⟩, start,
        ⟨⟨start.pos + Text.byteLength t, x⟩, false⟩⟩ := by
  unfold regexAt stepOf
  rw [hr, h]
  dsimp only [Except.map, Cursor.span]
  rw [List.take_left, skip_append hr]
  rfl

theorem exists_text_of_regexAt {start : Cursor} {regexAllowed newline : Bool} {u : Token}
    (h : (regexAt start regexAllowed newline).outcome = .ok u) :
    ∃ t x, start.rest = t ++ x ∧ Token.regex (t ++ x) = ⟨t.length, .ok ()⟩ := by
  have ho : (Token.regex start.rest).outcome = .ok () := by
    unfold regexAt stepOf at h
    dsimp only at h
    cases ho : (Token.regex start.rest).outcome with
    | ok => rfl
    | error d =>
      rw [ho] at h
      cases h
  have hl : (Token.regex start.rest).size ≤ start.rest.length := by
    rcases hr : start.rest with _ | ⟨c, r⟩
    · rw [hr] at ho
      cases ho
    · exact Token.regex_le c r
  refine ⟨start.rest.take (Token.regex start.rest).size, _, (List.take_append_drop _ _).symm, ?_⟩
  rw [List.take_append_drop, List.length_take, Nat.min_eq_left hl]
  exact Token.Scan.eq_of rfl ho

/-! ## Another text behind -/

/-- The place in another text that has `y` in the place of its end `x`, and so many bytes more in front. -/
def swap (front : Nat) (x y : List Char) (l : Lexer) : Lexer :=
  ⟨⟨l.cursor.pos + front, l.cursor.rest.take (l.cursor.rest.length - x.length) ++ y⟩, l.regexAllowed⟩

theorem swap_eq {l : Lexer} {r x : List Char} (h : l.cursor.rest = r ++ x) (front : Nat) (y : List Char) :
    swap front x y l = ⟨⟨l.cursor.pos + front, r ++ y⟩, l.regexAllowed⟩ := by
  unfold swap
  rw [h, List.length_append, Nat.add_sub_cancel, List.take_left]

/-- **A token stays in front** when another text is behind it that is a fence for it. -/
theorem Front.swap {l : Lexer} {g t r x y v : List Char} {k : Kind} {newline : Bool} (h : l.Front g t (r ++ x) k v newline)
    (hf : Token.Fence x y) (hs : r = [] → y.head? = .some '/' → x.head? ≠ .some '/' → k.endsOperand = true) (front : Nat) :
    (swap front x y l).Front g t (r ++ y) k v newline := by
  have hl := @swap_eq l (g ++ (t ++ r)) x (by rw [h.rest]; simp only [List.append_assoc]) front y
  rw [hl]
  refine ⟨by simp only [List.append_assoc], h.gap, ?_, h.some, scan_fence h.some h.scan (hf.append r)⟩
  obtain ⟨c, t, rfl⟩ := List.exists_cons_of_ne_nil h.some
  obtain ⟨hspace, hx⟩ : Token.isSpace c = false ∧ Token.opensComment c (t ++ (r ++ x)) = false :=
    Token.trivia_cons_eq_none.1 h.bare
  refine Token.trivia_cons_eq_none.2 ⟨hspace, ?_⟩
  show Token.opensComment c (t ++ (r ++ y)) = false
  by_cases htr : t ++ r = []
  · -- The token is a single character: it is no slash, or no comment begins with it.
    obtain ⟨rfl, rfl⟩ := List.append_eq_nil_iff.1 htr
    cases hy : Token.opensComment c ([] ++ ([] ++ y)) with
    | false => rfl
    | true =>
      obtain ⟨rfl, hc⟩ := Token.opensComment_eq_true.1 hy
      have hk := h.slash
      by_cases he : y.head? = x.head?
      · have : Token.opensComment '/' ([] ++ ([] ++ y)) = Token.opensComment '/' ([] ++ ([] ++ x)) := by
          simp only [Token.opensComment, List.nil_append, he]
        rw [← this, hy] at hx
        cases hx
      · rcases hc with ⟨w, rfl⟩ | ⟨w, rfl⟩
        · rw [hs rfl rfl (Ne.symm he)] at hk
          cases hk
        · exact absurd (hf.resolve_left he '*' rfl) (by decide)
  · unfold Token.opensComment at hx ⊢
    rw [← List.append_assoc] at hx ⊢
    rw [@Token.head?_inside x y _ htr]
    exact hx

end Readback.Lexer
