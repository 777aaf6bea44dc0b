import Readback.Proofs.Grammar.Piece
/-!
# What is cut out of a text

Reading goes forward from token to token, and back to a slash that has to open a regular expression.  Wherever it comes, it
stands between two characters, and what is cut out of the text there by byte offsets is in the text and breaks no character.
-/
namespace Readback

open Token (Kind)

variable {source : List Char} {l l' : Lexer} {t : Token}

/-- The bytes of the piece, counted from the place on, are in the text and are the piece. -/
def Cursor.Cuts (source : List Char) (c : Cursor) (piece : List Char) : Prop :=
  Text.slice c.pos (c.pos + Text.byteLength piece) source = some piece

namespace Lexer

/-- **The places that reading comes to** from an offset of a text: behind the next token, and behind the regular expression
that the slash in hand opens. -/
inductive Reached (source : List Char) : Lexer → Prop
  | start {offset : Nat} {l : Lexer} (h : at? source offset = some l) : Reached source l
  | next {l : Lexer} (h : Reached source l) : Reached source l.next.after
  | again {l : Lexer} (h : Reached source l) (hs : l.HoldsSlash) : Reached source l.again.after

/-- A token that is read at a place, as the next one or once more. -/
def Reads (l : Lexer) (t : Token) : Prop := l.next.outcome = .ok t ∨ (l.HoldsSlash ∧ l.again.outcome = .ok t)

theorem before_of_at {offset : Nat} (h : at? source offset = some l) : (ofSource source).Before l := by
  unfold at? Cursor.at? at h
  rw [Option.map_map, Option.map_eq_some_iff] at h
  obtain ⟨r, hr, rfl⟩ := h
  obtain ⟨pre, hs, hn⟩ := Text.exists_append_of_dropBytes hr
  exact ⟨pre, hs, hn.symm.trans (Nat.zero_add _).symm⟩

/-- **Reading stays in the text**, between two of its characters. -/
theorem Reached.before (h : Reached source l) : (ofSource source).Before l := by
  induction h with
  | start h => exact before_of_at h
  | next _ ih => exact ih.trans (before_next_after _)
  | again _ _ ih => exact ih.trans (before_again_after _)

theorem Reached.of_goes (h : Reached source l) (hg : l.Goes l') : Reached source l' := by
  induction hg with
  | stay => exact h
  | step h₁ _ ih => exact ih (h₁.after ▸ h.next)
  | reread h₁ _ ih => exact ih (h₁.after ▸ h.again h₁.holdsSlash)

theorem Before.skip (h : (ofSource source).Before l) (n : Nat) : (ofSource source).Before ⟨l.cursor.skip n, l.regexAllowed⟩ :=
  h.trans ⟨_, before_of_skip rfl⟩

/-- What stands in front of a place, perhaps some characters further on, is cut out of the text. -/
theorem Before.cuts (h : (ofSource source).Before l) (n : Nat) {piece : List Char} (hp : piece <+: (l.cursor.skip n).rest) :
    (l.cursor.skip n).Cuts source piece := by
  obtain ⟨r, hr⟩ := hp
  exact (h.skip n).slice hr.symm

/-! ## Tokens -/

/-- A token is some of the characters from its start on; a string spells another text. -/
theorem exists_size_of_next (h : l.next.outcome = .ok t) :
    ∃ n, t.span = l.next.start.span n ∧ (t.kind ≠ .string → t.text = String.ofList (l.next.start.rest.take n)) := by
  unfold next at h ⊢
  dsimp only at h ⊢
  split at h
  · cases h
  · rename_i hc
    rw [if_neg hc, stepOf_start]
    generalize l.cursor.skip _ = start at h ⊢
    unfold stepOf at h
    cases ho : (scan l.regexAllowed start.rest).outcome with
    | error d => rw [ho] at h; cases h
    | ok p =>
      rw [ho] at h
      cases h
      exact ⟨_, rfl, fun hk => congrArg String.ofList (Token.scan_text (Token.Scan.eq_of rfl ho) hk)⟩

/-- The span of a token cuts the text of the token out of the source, but not what a string spells. -/
def Cuts (source : List Char) (t : Token) : Prop :=
  ∃ text, Text.slice t.span.start t.span.stop source = some text ∧ (t.kind ≠ .string → t.text = String.ofList text)

theorem Before.cuts_token (h : (ofSource source).Before l) (ht : l.Reads t) : Cuts source t := by
  have hstart := h.trans (before_next l)
  rcases ht with ht | ⟨hs, ht⟩
  · obtain ⟨n, hspan, htext⟩ := exists_size_of_next ht
    refine ⟨_, ?_, htext⟩
    rw [hspan]
    exact hstart.slice (List.take_append_drop n _).symm
  · obtain ⟨w, x, -, hrest, htext, hspan⟩ := Grammar.isRegexAt_of_again hs ht
    refine ⟨w, ?_, fun _ => htext⟩
    rw [hspan]
    exact hstart.slice hrest

/-- Behind the slash that opens a regular expression there is a place. -/
theorem Before.behind_slash (h : (ofSource source).Before l) (hs : l.HoldsSlash) :
    Text.isBoundary (l.hand.span.start + 1) source = true := by
  obtain ⟨r, hr⟩ := List.head?_eq_some_iff.1 (Grammar.head_of_slash hs).2
  have hpos : (l.next.start.skip 1).pos = l.next.start.pos + 1 := by
    rw [Cursor.skip, hr]
    rfl
  rw [next_span hs.1.outcome, ← hpos]
  exact ((h.trans (before_next l)).skip 1).isBoundary.1

theorem regex_of_reads (ht : l.Reads t) (hk : t.kind = .regex) :
    ∃ text x, Grammar.IsRegexAt text x ∧ t.text = String.ofList text := by
  rcases ht with ht | ⟨hs, ht⟩
  · exact Grammar.isRegexAt_of_next ht hk
  · obtain ⟨text, x, hr, -, htext, -⟩ := Grammar.isRegexAt_of_again hs ht
    exact ⟨text, x, hr, htext⟩

/-- A regular expression is cut at its last slash, into what is behind its first one and the flags. -/
def CutsRegex (text : List Char) : Prop :=
  ∃ close, Text.slice close (close + 1) text = some ['/'] ∧ '/' ∉ (Grammar.splitRegex text).2.toList ∧
    Text.slice 1 close text = some (Grammar.splitRegex text).1.toList ∧
    Text.slice (close + 1) (Text.byteLength text) text = some (Grammar.splitRegex text).2.toList

theorem cutsRegex_of_isRegexAt {text x : List Char} (h : Grammar.IsRegexAt text x) : CutsRegex text := by
  obtain ⟨body, flags, rfl, hflags, hsplit⟩ := h.exists_parts
  have behind := Text.slice_rest ('/' :: body ++ ['/']) flags
  rw [Text.byteLength_append, List.append_assoc] at behind
  refine ⟨Text.byteLength ('/' :: body), Text.slice_piece ('/' :: body) ['/'] flags, ?_⟩
  rw [hsplit]
  dsimp only
  rw [String.toList_ofList, String.toList_ofList]
  exact ⟨hflags, Text.slice_piece ['/'] body ('/' :: flags), behind⟩

/-- The digits behind the letter of a radix are cut out of the text of the number. -/
theorem slice_radix {cs ds : List Char} {radix : Nat} (h : Number.Literal.radix? cs = some (radix, ds)) :
    Text.slice 2 (Text.byteLength cs) cs = some ds := by
  obtain ⟨c, rfl, hc⟩ : ∃ c, cs = '0' :: c :: ds ∧ Text.byteLength ['0', c] = 2 := by
    unfold Number.Literal.radix? at h
    split at h
    · repeat' split at h
      all_goals cases h
      all_goals rcases ‹_ ∨ _› with rfl | rfl <;> exact ⟨_, rfl, rfl⟩
    · cases h
  exact hc ▸ Text.slice_rest ['0', c] ds

/-! ## All that is cut out -/

/-- **What is cut out of a text at a place**: what is left there, and what is left some characters further on; the body of a
comment and what closes it; the digits of an escape; the tokens; and of the text of a token the parts of a regular expression
and the digits of a number. -/
structure Sliced (source : List Char) (l : Lexer) : Prop where
  rest    : ∀ n, Text.slice (l.cursor.skip n).pos (Text.byteLength source) source = some (l.cursor.skip n).rest
  comment : ∀ n body, Token.commentBody? (l.cursor.skip n).rest = some body →
    (l.cursor.skip n).Cuts source body ∧ (l.cursor.skip n).Cuts source (body ++ ['*', '/'])
  escape  : ∀ n k, (l.cursor.skip n).Cuts source (((l.cursor.skip n).rest.take k).takeWhile Token.isHex)
  slash   : l.HoldsSlash → Text.isBoundary (l.hand.span.start + 1) source = true
  token   : ∀ t, l.Reads t → Cuts source t
  regex   : ∀ t, l.Reads t → t.kind = .regex → CutsRegex t.text.toList
  radix   : ∀ t, l.Reads t → t.kind = .number → ∀ radix ds,
    Number.Literal.radix? (t.text.toList.filter (· != '_')) = some (radix, ds) →
      Text.slice 2 (Text.byteLength (t.text.toList.filter (· != '_'))) (t.text.toList.filter (· != '_')) = some ds

/-- **Nothing is cut out of a text that is not in it**, at any place that reading comes to. -/
theorem Reached.sliced (h : Reached source l) : Sliced source l where
  rest n := by
    obtain ⟨pre, hs, hp⟩ := (h.before.skip n).split
    dsimp only at hs hp
    rw [hp, hs, Text.slice_rest]
  comment n body hb := by
    obtain ⟨⟨w, hw⟩, -⟩ := Token.commentBody_eq_some hb
    exact ⟨h.before.cuts n ⟨_, hw.symm⟩, h.before.cuts n ⟨w, by rw [hw, List.append_assoc]; rfl⟩⟩
  escape n k := h.before.cuts n ((List.takeWhile_prefix _).trans (List.take_prefix _ _))
  slash := h.before.behind_slash
  token _ ht := h.before.cuts_token ht
  regex t ht hk := by
    obtain ⟨text, x, hr, htext⟩ := regex_of_reads ht hk
    rw [htext, String.toList_ofList]
    exact cutsRegex_of_isRegexAt hr
  radix _ _ _ _ _ hr := slice_radix hr

end Lexer

end Readback
