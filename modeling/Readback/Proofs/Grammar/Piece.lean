import Readback.Proofs.Grammar.Back
import Readback.Proofs.Grammar.Fill
/-!
# Pieces of a text that stand by themselves

What a tree holds word for word was read somewhere in a text: the definition of a function, and the pattern and the flags of a
regular expression.  Read by itself, such a piece is the same function or the same regular expression.
-/
namespace Readback

open Token (Kind)

/-! ## Regular expressions -/

namespace Token

variable {t x cs : List Char}

/-- The body of a regular expression ends with a slash. -/
theorem exists_slash_of_regexBody : ∀ {inside : Bool} {cs : List Char} {n : Nat}, regexBody inside cs = (n, true) →
    ∃ body r, cs = body ++ '/' :: r ∧ n = body.length + 1 := by
  intro inside cs
  induction inside, cs using regexBody.induct with
  | case1 => exact nofun
  | case2 => exact nofun
  | case3 inside c cs hc =>
    intro n h
    rw [regexBody, if_pos hc] at h
    cases h
  | case4 inside c cs hc ih =>
    intro n h
    rw [regexBody, if_neg hc] at h
    obtain ⟨hn, ht⟩ := Prod.mk.inj h
    obtain ⟨body, r, rfl, hb⟩ := ih (Prod.ext rfl ht)
    exact ⟨'\\' :: c :: body, r, rfl, hn.symm.trans (congrArg (· + 2) hb)⟩
  | case5 inside c cs h₁ h₂ hs =>
    intro n h
    rw [regexBody.eq_4 inside c cs h₁ h₂, if_pos hs] at h
    cases h
    exact ⟨[], cs, by simp_all, rfl⟩
  | case6 inside c cs h₁ h₂ hs he =>
    intro n h
    rw [regexBody.eq_4 inside c cs h₁ h₂, if_neg hs, if_pos he] at h
    cases h
  | case7 inside c cs h₁ h₂ hs he ih =>
    intro n h
    rw [regexBody.eq_4 inside c cs h₁ h₂, if_neg hs, if_neg he] at h
    obtain ⟨hn, ht⟩ := Prod.mk.inj h
    obtain ⟨body, r, rfl, hb⟩ := ih (Prod.ext rfl ht)
    exact ⟨c :: body, r, rfl, hn.symm.trans (congrArg (· + 1) hb)⟩

/-- **A regular expression is a body between slashes, and flags.** -/
theorem exists_parts_of_regex (h : regex ('/' :: t ++ x) = ⟨('/' :: t).length, .ok ()⟩) :
    ∃ body flags, t = body ++ '/' :: flags ∧ ∀ c ∈ flags, continuesName c = true := by
  have h := regex_fence h (.nil x)
  rw [List.append_nil] at h
  obtain ⟨n, hn⟩ := regexBody_of_regex (congrArg Scan.outcome h)
  rw [regex_eq hn] at h
  obtain ⟨body, flags, hb, rfl⟩ := exists_slash_of_regexBody hn
  obtain rfl : t = body ++ '/' :: flags := hb
  refine ⟨body, flags, rfl, ?_⟩
  have hd : ('/' :: (body ++ '/' :: flags)).drop (body.length + 1 + 1) = flags := by simp
  have hs : body.length + 1 + 1 + (nameRun (('/' :: (body ++ '/' :: flags)).drop (body.length + 1 + 1))).length =
      ('/' :: (body ++ '/' :: flags)).length := congrArg Scan.size h
  rw [hd] at hs
  have hlen : (nameRun flags).length = flags.length := by
    simp only [List.length_cons, List.length_append] at hs
    omega
  have hrun : nameRun flags = flags := (List.takeWhile_prefix _).eq_of_length hlen
  exact fun c hc => List.mem_takeWhile_imp (hrun.symm ▸ hc)

end Token

namespace Grammar

variable {b : Bool} {l l' : Lexer} {u : Token} {t x : List Char} {e : Expr}

/-- The text of a regular expression, where it stands. -/
structure IsRegexAt (t x : List Char) : Prop where
  bare  : Token.trivia (t ++ x) = .none
  slash : t.head? = some '/'
  regex : Token.regex (t ++ x) = ⟨t.length, .ok ()⟩

/-- **A regular expression is split behind its first slash and at its last one.** -/
theorem IsRegexAt.exists_parts (h : IsRegexAt t x) : ∃ body flags, t = '/' :: (body ++ '/' :: flags) ∧ '/' ∉ flags ∧
    splitRegex t = (String.ofList body, String.ofList flags) := by
  obtain ⟨s, rfl⟩ := List.head?_eq_some_iff.1 h.slash
  obtain ⟨body, flags, rfl, hf⟩ := Token.exists_parts_of_regex h.regex
  have hslash : '/' ∉ flags := by
    intro hm
    have := hf _ hm
    revert this
    decide +kernel
  have hsplit := @splitRegex_joined (String.ofList body) (String.ofList flags) (by rwa [String.toList_ofList])
  rw [toList_regexp, String.toList_ofList, String.toList_ofList] at hsplit
  exact ⟨body, flags, rfl, hslash, hsplit⟩

/-- **A regular expression that was read is one by itself**, and the flags begin behind its last slash. -/
theorem IsRegexAt.split (h : IsRegexAt t x) :
    IsRegexp (splitRegex t).1 (splitRegex t).2 ∧ '/' ∉ (splitRegex t).2.toList := by
  obtain ⟨body, flags, rfl, hslash, hsplit⟩ := h.exists_parts
  have htext : ("/" ++ String.ofList body ++ "/" ++ String.ofList flags).toList = '/' :: (body ++ '/' :: flags) := by
    rw [toList_regexp, String.toList_ofList, String.toList_ofList]
  rw [hsplit]
  refine ⟨isRegexp_of_regex htext ?_ ?_ (by simp), by rwa [String.toList_ofList]⟩
  · have := Token.regex_fence h.regex (.nil x)
    rwa [List.append_nil] at this
  · -- what is behind the first slash is there without the text behind, too
    have hb : Token.opensComment '/' ((body ++ '/' :: flags) ++ x) = false := (Token.trivia_cons_eq_none.1 h.bare).2
    unfold Token.opensComment at hb ⊢
    rwa [Token.head?_inside (y := x) (x := []) (by simp), List.append_nil] at hb

theorem isRegexAt_of_next {u : Token} (h : l.next.outcome = .ok u) (hk : u.kind = .regex) :
    ∃ t x, IsRegexAt t x ∧ u.text = String.ofList t := by
  obtain ⟨g, t, x, v, hf⟩ := Lexer.front_of_next h (by rw [hk]; nofun)
  rw [hk] at hf
  have hhand := (Lexer.hand_of_outcome h).symm.trans (hand_of_next hf.next rfl)
  obtain ⟨c, s, rfl⟩ := List.exists_cons_of_ne_nil hf.some
  obtain ⟨-, -, -, hk⟩ | hk | hk | ⟨-, rfl, -, hr, rfl⟩ | hk := Token.scan_cases hf.scan
  · exact absurd hk.symm (fun hk => by unfold Token.kindOfName at hk; split at hk <;> cases hk)
  · cases hk
  · cases hk
  · refine ⟨'/' :: s, x, ⟨hf.bare, rfl, hr⟩, ?_⟩
    rw [hhand]
    exact congrArg String.ofList List.take_left
  · cases hk

/-- A slash in hand is the first character of its token. -/
theorem head_of_slash (hs : l.HoldsSlash) :
    Token.trivia l.next.start.rest = .none ∧ l.next.start.rest.head? = some '/' := by
  obtain ⟨g, s, z, v, hf⟩ := Lexer.front_of_next hs.1.outcome hs.ne_eof
  have hstart : l.next.start.rest = s ++ z := by rw [hf.next]
  have hhead : s.head? = some '/' := by
    rcases hs.2 with hk | ⟨hk, hslash⟩
    · have hall : ∀ p ∈ Token.punctuators, p.2 = .slash → p.1.head? = some '/' := by decide
      exact hall _ (hf.punctuator (by rw [hk]; rfl)).2 hk
    · obtain ⟨rfl, -⟩ := hf.punctuator (by rw [hk]; rfl)
      rwa [Lexer.hand_of_outcome (by rw [hf.next]), String.toList_ofList] at hslash
  rw [hstart]
  refine ⟨hf.bare, ?_⟩
  rw [List.head?_append, hhead]
  rfl

theorem isRegexAt_of_again (hs : l.HoldsSlash) (hu : l.again.outcome = .ok u) :
    ∃ t x, IsRegexAt t x ∧ l.next.start.rest = t ++ x ∧ u.text = String.ofList t ∧
      u.span = ⟨l.next.start.pos, l.next.start.pos + Text.byteLength t⟩ := by
  obtain ⟨hbare, hhead⟩ := head_of_slash hs
  obtain ⟨t, x, ht, hr⟩ := Lexer.exists_text_of_regexAt hu
  rw [Lexer.again, Lexer.regexAt_of_regex ht hr] at hu
  cases Except.ok.inj hu
  rw [ht] at hbare hhead
  refine ⟨t, x, ⟨hbare, ?_, hr⟩, ht, rfl, rfl⟩
  have hpos := Token.regex_pos (t ++ x)
  rw [hr] at hpos
  obtain ⟨c, s, rfl⟩ := List.exists_cons_of_length_pos hpos
  exact hhead

theorem IsRegexAt.of_text {text : String} (h : ∃ t x, IsRegexAt t x ∧ text = String.ofList t) :
    IsRegexp (splitRegex text.toList).1 (splitRegex text.toList).2 ∧ '/' ∉ (splitRegex text.toList).2.toList := by
  obtain ⟨t, x, h, rfl⟩ := h
  rw [String.toList_ofList]
  exact h.split

/-! ## Functions -/

/-- A keyword is one whether a slash there would open a regular expression or not. -/
theorem front_of_keyword {g t x v : List Char} {word : Keyword} {newline : Bool}
    (h : l.Front g t x (.keyword word) v newline) (n : Nat) (bit : Bool) :
    Lexer.Front ⟨⟨n, t ++ x⟩, bit⟩ [] t x (.keyword word) v false := by
  refine ⟨rfl, .none, h.bare, h.some, ?_⟩
  have hs := h.scan
  obtain ⟨c, s, rfl⟩ := List.exists_cons_of_ne_nil h.some
  obtain ⟨hc, -⟩ | hk | hk | ⟨hk, -⟩ | hk := Token.scan_cases hs
  · rw [List.cons_append, Lexer.scan_cons, if_pos hc] at hs ⊢
    exact hs
  all_goals cases hk

/-- **A piece that is read as an operand is one by itself.** -/
theorem Derives.fills_alone {start : Nat}
    (h : Derives false .primary ⟨⟨start, t ++ l'.cursor.rest⟩, true⟩ e l')
    (hr : Lexer.Ready ⟨⟨start, t ++ l'.cursor.rest⟩, true⟩)
    (hs : (⟨⟨start, t ++ l'.cursor.rest⟩, true⟩ : Lexer).hand.span.start = start)
    (ho : opensPrimary (⟨⟨start, t ++ l'.cursor.rest⟩, true⟩ : Lexer).hand.kind = true) :
    Fills 0 t [] (e.move (.left start)) := by
  have hi : Beyond start ⟨⟨start, t ++ l'.cursor.rest⟩, true⟩ := ⟨hr, Nat.le_refl _⟩
  have hc : Cut 0 l'.cursor.rest [] (l'.back start) := (Cut.atEnd (l'.back start)).1
  have hd := (h.back hi).cut hc trivial
  have hsame := ((h.back hi).inner hc.transport rfl .stay).same
  have hbehind : Same (.left start) _ (Lexer.hand (Lexer.back start _)) := hi.same (rigid_left start)
  have hpos : l'.cursor.pos = start + Text.byteLength t := by
    obtain ⟨t', hrest, hpos⟩ := h.goes.before
    rw [hpos, List.append_cancel_right (show t ++ _ = t' ++ _ from hrest)]
  have hfrom : Lexer.swap 0 l'.cursor.rest [] (Lexer.back start ⟨⟨start, t ++ l'.cursor.rest⟩, true⟩) =
      ⟨⟨0, t ++ []⟩, true⟩ := by
    rw [@Lexer.swap_eq (Lexer.back start ⟨⟨start, t ++ l'.cursor.rest⟩, true⟩) t _ rfl]
    simp [Lexer.back]
  have hto : Lexer.swap 0 l'.cursor.rest [] (l'.back start) = ⟨⟨0 + Text.byteLength t, []⟩, l'.regexAllowed⟩ := by
    rw [@Lexer.swap_eq (l'.back start) [] _ rfl]
    simp [Lexer.back, hpos]
  have hmove : Phrase.move (.right 0) .primary (Phrase.move (.left start) .primary e) = e.move (.left start) :=
    Phrase.move_stay .primary _
  rw [hfrom, hto, hmove] at hd
  rw [hfrom] at hsame
  refine .of_primary hd ?_ ?_ .nil
  · rw [hsame.span, hbehind.span]
    simp only [Span.move, Move.left, Move.right, hs, Nat.sub_self]
  · rw [hsame.kind, hbehind.kind]
    exact ho

/-- What a function has in front of its body is the same within another function. -/
def Phrase.isHead : Phrase → Bool
  | .functionName | .parameters | .params | .signature => true
  | _ => false

theorem Derives.anywhere {p : Phrase} {a : p.Result} (h : Derives b p l a l') (hp : p.isHead = true) (b' : Bool) :
    Derives b' p l a l' := by
  induction h with
  | named h₁ => exact .named h₁
  | nameless h₁ => exact .nameless h₁
  | noParams h₁ => exact .noParams h₁
  | someParams h₁ _ c₂ => exact .someParams h₁ (c₂ rfl)
  | lastParam h₁ h₂ => exact .lastParam h₁ h₂
  | param h₁ h₂ _ c₃ => exact .param h₁ h₂ (c₃ rfl)
  | signature h₁ _ h₃ h₄ c₂ => exact .signature h₁ (c₂ rfl) h₃ h₄
  | _ => cases hp

/-- **The definition of a function is one by itself.** -/
theorem Derives.parse_function {s : Span} {name : Option String} {params : List String} {body : List Stmt}
    (h : Derives b .primary l (.function s name params body) l') :
    ∃ t start, l.next.start = ⟨start, t ++ l'.cursor.rest⟩ ∧ s = ⟨start, start + Text.byteLength t⟩ ∧
      parseExpressionAt (String.ofList t) 0 = .ok ((Expr.function s name params body).move (.left start)) := by
  obtain ⟨rfl⟩ : s = l.upTo l' := h.spanned
  generalize hx : (Expr.function (l.upTo l') name params body) = e at h
  cases h with
  | @function _ _ l₁ l₂ _ f _ h₁ h₂ h₃ =>
    cases hx
    obtain ⟨g, w, z, v, hf⟩ := Lexer.front_of_next h₁.ready.outcome h₁.more
    rw [h₁.kind] at hf
    generalize hstart : l.cursor.pos + Text.byteLength g = start
    have hnext : l.next.start = ⟨start, w ++ z⟩ := by rw [hf.next, hstart]
    have hhand : l.hand.span.start = start := by rw [hand_of_next hf.next rfl, hstart]
    obtain rfl : l₁ = ⟨⟨start + Text.byteLength w, z⟩, true⟩ := by
      rw [h₁.after, hf.next, hstart]
      rfl
    -- behind the gap the keyword is taken, too
    have htake : (⟨⟨start, w ++ z⟩, true⟩ : Lexer).Takes (.keyword .function) ⟨⟨start + Text.byteLength w, z⟩, true⟩ :=
      takes_of_front (front_of_keyword hf start true) nofun h₁.ready'
    have hspan : (⟨⟨start, w ++ z⟩, true⟩ : Lexer).hand.span.start = start := by
      rw [hand_of_next (front_of_keyword hf start true).next rfl]
      rfl
    have hown : (⟨⟨start, w ++ z⟩, true⟩ : Lexer).upTo l' = l.upTo l' := by
      rw [Lexer.upTo, Lexer.upTo, hspan, hhand]
    have hd : Derives false .primary _ _ l' := .function htake (h₂.anywhere rfl false) (h₃.anywhere rfl false)
    rw [hown] at hd
    obtain ⟨t, hrest, hpos⟩ := hd.goes.before
    have hrest : w ++ z = t ++ l'.cursor.rest := hrest
    have hpos : l'.cursor.pos = start + Text.byteLength t := hpos
    have hkind : (⟨⟨start, w ++ z⟩, true⟩ : Lexer).hand.kind = .keyword .function := htake.kind
    rw [hrest] at hd hspan hkind
    have hfills := hd.fills_alone (hd.ready_start rfl) hspan (by rw [hkind]; rfl)
    rw [← String.toList_ofList (l := t)] at hfills
    exact ⟨t, start, by rw [hnext, hrest], by rw [Lexer.upTo, hhand, hpos], hfills.parse.1⟩
  | _ => cases hx

end Grammar

end Readback
