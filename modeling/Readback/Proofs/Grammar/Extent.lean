import Readback.Proofs.Grammar.Derives
/-!
# The extent of a phrase

A phrase is a piece of the text: what is left behind it is a tail of what was left in front of it.  The span of its tree
goes from the first token to the end of the last one.
-/
namespace Readback

/-- A piece of a text, cut out of it. -/
theorem Text.slice_piece (pre t y : List Char) :
    slice (byteLength pre) (byteLength pre + byteLength t) (pre ++ (t ++ y)) = some t := by
  unfold slice
  rw [if_pos (Nat.le_add_right _ _), dropBytes_byteLength_append, Option.bind_some, Nat.add_sub_cancel_left,
    takeBytes_byteLength_append]

/-- What is left of a text, cut out of it. -/
theorem Text.slice_rest (pre t : List Char) : slice (byteLength pre) (byteLength (pre ++ t)) (pre ++ t) = some t := by
  have := slice_piece pre t []
  rwa [List.append_nil, ← byteLength_append] at this

namespace Lexer

variable {l l' l'' : Lexer} {u : Token}

/-- The later place is so much text further. -/
def Spells (l : Lexer) (text : List Char) (l' : Lexer) : Prop :=
  l.cursor.rest = text ++ l'.cursor.rest ∧ l'.cursor.pos = l.cursor.pos + Text.byteLength text

/-- The later place is in the same text. -/
def Before (l l' : Lexer) : Prop := ∃ text, l.Spells text l'

theorem Before.refl (l : Lexer) : l.Before l := ⟨[], rfl, rfl⟩

theorem Before.trans (h : l.Before l') (h' : l'.Before l'') : l.Before l'' := by
  obtain ⟨x, hx, hp⟩ := h
  obtain ⟨y, hy, hq⟩ := h'
  refine ⟨x ++ y, ?_, ?_⟩
  · rw [hx, hy, List.append_assoc]
  · rw [hq, hp, Text.byteLength_append, Nat.add_assoc]

theorem before_of_skip {c : Cursor} {n : Nat} (h : l'.cursor = c.skip n) :
    c.rest = c.rest.take n ++ l'.cursor.rest ∧ l'.cursor.pos = c.pos + Text.byteLength (c.rest.take n) := by
  rw [h]
  exact ⟨(List.take_append_drop n c.rest).symm, rfl⟩

theorem next_start (l : Lexer) : l.next.start = l.cursor.skip (Token.trivia l.cursor.rest).size := by
  unfold next
  dsimp only
  split
  · rfl
  · exact stepOf_start _ _ _ _

theorem before_next (l : Lexer) : l.Before ⟨l.next.start, l.regexAllowed⟩ := by
  rw [next_start]
  exact ⟨_, @before_of_skip ⟨_, true⟩ l.cursor _ rfl⟩

/-- Reading goes on behind the token, or behind what is wrong. -/
theorem next_after (l : Lexer) : ∃ n, l.next.after.cursor = l.next.start.skip n := by
  unfold next
  dsimp only
  split
  · exact ⟨_, rfl⟩
  · rw [stepOf_after, stepOf_start]
    exact ⟨_, rfl⟩

theorem before_next_after (l : Lexer) : l.Before l.next.after := by
  obtain ⟨n, hn⟩ := next_after l
  exact (before_next l).trans ⟨_, before_of_skip hn⟩

theorem Steps.before (h : l.Steps l') : l.Before l' := h.after ▸ before_next_after l

theorem before_again_after (l : Lexer) : l.Before l.again.after :=
  (before_next l).trans ⟨_, before_of_skip (stepOf_after ..)⟩

theorem Rereads.before (h : l.Rereads u l') : l.Before l' := h.after ▸ before_again_after l

/-! A place of a text. -/

theorem Before.split {cs : List Char} (h : (ofSource cs).Before l) :
    ∃ pre, cs = pre ++ l.cursor.rest ∧ l.cursor.pos = Text.byteLength pre := by
  obtain ⟨pre, hr, hp⟩ := h
  exact ⟨pre, hr, hp.trans (Nat.zero_add _)⟩

/-- What is left at a place begins with the text that is cut out from there on. -/
theorem Before.slice {cs t r : List Char} (h : (ofSource cs).Before l) (hr : l.cursor.rest = t ++ r) :
    Text.slice l.cursor.pos (l.cursor.pos + Text.byteLength t) cs = some t := by
  obtain ⟨pre, rfl, hp⟩ := h.split
  rw [hp, hr, Text.slice_piece]

theorem Before.isBoundary {cs : List Char} (h : (ofSource cs).Before l) :
    Text.isBoundary l.cursor.pos cs = true ∧ l.cursor.pos ≤ Text.byteLength cs := by
  obtain ⟨pre, rfl, hp⟩ := h.split
  rw [hp, Text.isBoundary, Text.dropBytes_byteLength_append, Text.byteLength_append]
  exact ⟨rfl, Nat.le_add_right _ _⟩

/-- From one place to a later one tokens are taken, one after the other. -/
inductive Goes : Lexer → Lexer → Prop
  | stay {l : Lexer} : Goes l l
  | step {l l₁ l' : Lexer} (h₁ : l.Steps l₁) (h₂ : Goes l₁ l') : Goes l l'
  | reread {l l₁ l' : Lexer} {u : Token} (h₁ : l.Rereads u l₁) (h₂ : Goes l₁ l') : Goes l l'

@[grind →] theorem Goes.trans (h : l.Goes l') (h' : l'.Goes l'') : l.Goes l'' := by
  induction h with
  | stay => exact h'
  | step h₁ _ ih => exact .step h₁ (ih h')
  | reread h₁ _ ih => exact .reread h₁ (ih h')

@[grind →] theorem Steps.goes (h : l.Steps l') : l.Goes l' := .step h .stay

@[grind →] theorem Takes.goes {k : Token.Kind} (h : l.Takes k l') : l.Goes l' := h.toSteps.goes

@[grind →] theorem Rereads.goes (h : l.Rereads u l') : l.Goes l' := .reread h .stay

theorem Goes.before (h : l.Goes l') : l.Before l' := by
  induction h with
  | stay => exact .refl _
  | step h₁ _ ih => exact h₁.before.trans ih
  | reread h₁ _ ih => exact h₁.before.trans ih

theorem Goes.left_le (h : l.Goes l') : l'.left ≤ l.left := by
  induction h with
  | stay => exact Nat.le_refl _
  | step h₁ _ ih => exact ih.trans h₁.left_lt.le
  | reread h₁ _ ih => exact ih.trans h₁.left_lt.le

end Lexer

namespace Grammar

variable {b : Bool} {p : Phrase} {l l' : Lexer}

/-- **A phrase is made of the tokens from its start to its end.** -/
@[grind →] theorem Derives.goes {a : p.Result} (h : Derives b p l a l') : l.Goes l' := by
  induction h <;> grind [Lexer.Goes.stay]

/-- The token in hand is taken, once more as a regular expression perhaps, on the way to a later place. -/
def Opens (l l' : Lexer) : Prop := ∃ l₁, (l.Steps l₁ ∨ ∃ u, l.Rereads u l₁) ∧ l₁.Goes l'

@[grind →] theorem Opens.of_steps (h : l.Steps l') : Opens l l' := ⟨l', .inl h, .stay⟩

@[grind →] theorem Opens.of_takes {k : Token.Kind} (h : l.Takes k l') : Opens l l' := .of_steps h.toSteps

@[grind →] theorem Opens.of_rereads {u : Token} (h : l.Rereads u l') : Opens l l' := ⟨l', .inr ⟨u, h⟩, .stay⟩

@[grind →] theorem Opens.trans {l'' : Lexer} (h : Opens l l') (h' : l'.Goes l'') : Opens l l'' := by
  obtain ⟨l₁, h₁, hg⟩ := h
  exact ⟨l₁, h₁, hg.trans h'⟩

theorem Opens.ready (h : Opens l l') : l.Ready := by
  obtain ⟨l₁, h₁ | ⟨u, h₁⟩, -⟩ := h
  · exact h₁.ready
  · exact h₁.ready

theorem Opens.ne_eof (h : Opens l l') : l.hand.kind ≠ .eof := by
  obtain ⟨l₁, h₁ | ⟨u, h₁⟩, -⟩ := h
  · exact h₁.more
  · exact h₁.ne_eof

theorem Opens.goes (h : Opens l l') : l.Goes l' := by
  obtain ⟨l₁, h₁ | ⟨u, h₁⟩, hg⟩ := h
  · exact .step h₁ hg
  · exact .reread h₁ hg

theorem Opens.left_lt (h : Opens l l') : l'.left < l.left := by
  obtain ⟨l₁, h₁ | ⟨u, h₁⟩, hg⟩ := h
  · exact hg.left_le.trans_lt h₁.left_lt
  · exact hg.left_le.trans_lt h₁.left_lt

/-- **A phrase begins with the token in hand**, if it has any. -/
@[grind →] theorem Derives.opens {a : p.Result} (h : Derives b p l a l') : Opens l l' ∨ (p.least = 0 ∧ l = l') := by
  induction h <;> simp only [Phrase.least, Nat.one_ne_zero, false_and, or_false, true_and] at * <;> grind

/-- A phrase that has to take a token begins with the one in hand. -/
theorem Derives.opens_of_least {a : p.Result} (h : Derives b p l a l') (hp : p.least = 1) : Opens l l' :=
  h.opens.resolve_right fun hn => by simp [hp] at hn

/-- The tree has a span, and that is the extent of the phrase. -/
def Spanned : (p : Phrase) → Lexer → p.Result → Lexer → Prop
  | .expression, l, e, l' | .assignment, l, e, l' | .conditional, l, e, l' | .binary _, l, e, l' | .operators _, l, e, l'
  | .unary, l, e, l' | .update, l, e, l' | .member _, l, e, l' | .chain _, l, e, l' | .construct, l, e, l'
  | .primary, l, e, l' => e.span = l.upTo l'
  | .statement, l, a, l' => a.span = l.upTo l'
  | .property, l, a, l' => a.span = l.upTo l'
  | _, _, _, _ => True

/-- **The span of a tree goes from the first token of the phrase to the end of the last one.** -/
theorem Derives.spanned {a : p.Result} (h : Derives b p l a l') : Spanned p l a l' := by
  induction h <;> simp only [Spanned, Expr.span, Stmt.span, Property.span] at * <;>
    grind [Lexer.upTo, Span.through, Lexer.Steps.stop]

end Grammar

end Readback
