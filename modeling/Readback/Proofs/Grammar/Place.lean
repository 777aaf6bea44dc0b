import Readback.Grammar.Reading
import Readback.Proofs.Token.Scan
/-!
# Places between tokens

A reading is always somewhere between two tokens: the lexer stands behind the token taken last, and the token after it is
in hand.  So the state of a reading is a lexer, and going on is a relation between lexers.
-/
namespace Readback

namespace Lexer

open Token (Kind)

variable {l l' : Lexer} {t u : Token} {b : Bool}

/-- The token in hand at a place; where there is none, it does not matter which. -/
def hand (l : Lexer) : Token := match l.next.outcome with | .ok t => t | .error _ => default

/-- There is a token to take in hand. -/
def Ready (l : Lexer) : Prop := ∃ t, l.next.outcome = .ok t

/-- The token in hand is taken. -/
structure Steps (l l' : Lexer) : Prop where
  ready   : l.Ready
  more    : l.hand.kind ≠ .eof
  after   : l' = l.next.after
  ready'  : l'.Ready

/-- The token in hand is of a kind and is taken. -/
structure Takes (l : Lexer) (k : Kind) (l' : Lexer) : Prop extends Steps l l' where
  kind : l.hand.kind = k

/-- The token in hand, read once more as a regular expression. -/
def again (l : Lexer) : Step := regexAt l.next.start l.next.after.regexAllowed l.hand.newlineBefore

/-- The token in hand is a slash, is read once more as a regular expression, and that is taken. -/
structure Rereads (l : Lexer) (u : Token) (l' : Lexer) : Prop where
  ready   : l.Ready
  slash   : l.hand.kind = .slash ∨ (l.hand.kind = .compoundAssign ∧ l.hand.text.toList.head? = some '/')
  outcome : l.again.outcome = .ok u
  after   : l' = l.again.after
  ready'  : l'.Ready

/-- The token in hand is an operator that begins with a slash. -/
def HoldsSlash (l : Lexer) : Prop :=
  l.Ready ∧ (l.hand.kind = .slash ∨ (l.hand.kind = .compoundAssign ∧ l.hand.text.toList.head? = some '/'))

/-- From the token in hand to the end of the last token before a later place. -/
def upTo (l l' : Lexer) : Span := ⟨l.hand.span.start, l'.cursor.pos⟩

/-- The state of a reading at a place. -/
def state (b : Bool) (l : Lexer) : Grammar.State := ⟨l.hand, l.next.start, l.next.after, l.cursor.pos, b⟩

/-- The characters from the token in hand on. -/
def left (l : Lexer) : Nat := l.next.start.rest.length

theorem hand_of_outcome (h : l.next.outcome = .ok t) : l.hand = t := by simp only [hand, h]

theorem Ready.outcome (h : l.Ready) : l.next.outcome = .ok l.hand := by
  obtain ⟨t, ht⟩ := h
  rw [hand_of_outcome ht, ht]

/-! ## Where a token stands -/

theorem stepOf_span {start : Cursor} {regexAllowed newline : Bool} {s : Token.Scan (Kind × List Char)}
    (h : (stepOf start regexAllowed newline s).outcome = .ok t) :
    t.span = ⟨start.pos, (stepOf start regexAllowed newline s).after.cursor.pos⟩ := by
  unfold stepOf at h ⊢
  split at h
  · cases h; rfl
  · cases h

theorem next_span (h : l.next.outcome = .ok t) : t.span = ⟨l.next.start.pos, l.next.after.cursor.pos⟩ := by
  unfold next at h ⊢
  dsimp only at h ⊢
  split at h
  · cases h
  · rename_i hc
    rw [if_neg hc]
    have hs := stepOf_span h
    rw [hs]
    unfold stepOf
    split <;> rfl

theorem Steps.stop (h : l.Steps l') : l.hand.span.stop = l'.cursor.pos := by
  rw [next_span h.ready.outcome, h.after]

theorem Steps.span (h : l.Steps l') : l.hand.span = l.upTo l' := by
  rw [upTo, ← h.stop]

theorem Rereads.span (h : l.Rereads u l') : u.span = l.upTo l' := by
  have h1 := stepOf_span h.outcome
  have h2 := next_span h.ready.outcome
  rw [h1, upTo, h2, h.after]
  rfl

theorem Rereads.kind (h : l.Rereads u l') : u.kind = .regex := by
  have ho := h.outcome
  unfold again regexAt stepOf at ho
  dsimp only at ho
  split at ho
  · rename_i hs
    cases ho
    cases hr : (Token.regex l.next.start.rest).outcome with
    | ok => rw [hr] at hs; cases hs; rfl
    | error e => rw [hr] at hs; cases hs
  · cases ho

theorem Steps.unique {l'' : Lexer} (h : l.Steps l') (h' : l.Steps l'') : l' = l'' := h.after.trans h'.after.symm

theorem HoldsSlash.ne_eof (h : l.HoldsSlash) : l.hand.kind ≠ .eof := by
  rcases h.2 with hk | ⟨hk, -⟩ <;> rw [hk] <;> decide

theorem Rereads.holdsSlash (h : l.Rereads u l') : l.HoldsSlash := ⟨h.ready, h.slash⟩

theorem Rereads.ne_eof (h : l.Rereads u l') : l.hand.kind ≠ .eof := h.holdsSlash.ne_eof

/-! ## What is left -/

/-- Taking a token leaves less. -/
@[grind →] theorem Steps.left_lt (h : l.Steps l') : l'.left < l.left := by
  have h1 := length_next_after h.ready.outcome h.more
  have h2 := length_next_start l'
  unfold left
  rw [h.after] at h2 ⊢
  omega

@[grind →] theorem Takes.left_lt {k : Kind} (h : l.Takes k l') : l'.left < l.left := h.toSteps.left_lt

@[grind →] theorem Rereads.left_lt (h : l.Rereads u l') : l'.left < l.left := by
  have h1 : 0 < l.next.start.rest.length := by
    have := length_next_after h.ready.outcome h.ne_eof
    omega
  have h2 := length_next_start l'
  have h3 := Token.regex_pos l.next.start.rest
  have h4 : l'.cursor = l.next.start.skip (Token.regex l.next.start.rest).size := h.after ▸ stepOf_after _ _ _ _
  rw [h4, length_skip] at h2
  unfold left
  omega

end Lexer

/-! ## Readings at a place -/

namespace Grammar.Reading

open Token (Kind)

variable {l l' : Lexer} {b : Bool} {α β : Type} {s s' : State}

theorem bind_apply (x : Reading α) (f : α → Reading β) :
    (x >>= f) s = match x s with | .done a s₁ => f a s₁ | .refused d => .refused d | .exhausted => .exhausted := rfl

theorem bind_eq_done {x : Reading α} {f : α → Reading β} {y : β} :
    (x >>= f) s = .done y s' ↔ ∃ a s₁, x s = .done a s₁ ∧ f a s₁ = .done y s' := by
  rw [bind_apply]
  cases x s <;> simp [and_assoc]

theorem bind_of_done {x : Reading α} {f : α → Reading β} {a : α} {s₁ : State} (h : x s = .done a s₁) :
    (x >>= f) s = f a s₁ := by
  rw [bind_apply, h]

theorem bind_of_refused {x : Reading α} {f : α → Reading β} {d : Diagnostic} (h : x s = .refused d) :
    (x >>= f) s = .refused d := by
  rw [bind_apply, h]

@[simp] theorem pure_apply (a : α) : (Pure.pure a : Reading α) s = .done a s := rfl
@[simp] theorem token_bind {f : Token → Reading α} : (token >>= f) (l.state b) = f l.hand (l.state b) := rfl
@[simp] theorem kind_bind {f : Kind → Reading α} : (kind >>= f) (l.state b) = f l.hand.kind (l.state b) := rfl
@[simp] theorem place_bind {f : Nat → Reading α} : (place >>= f) (l.state b) = f l.hand.span.start (l.state b) := rfl
@[simp] theorem inFunction_bind {f : Bool → Reading α} : (inFunction >>= f) (l.state b) = f b (l.state b) := rfl

@[simp] theorem at_bind {k : Kind} {f : Bool → Reading α} :
    (at? k >>= f) (l.state b) = f (l.hand.kind == k) (l.state b) := rfl

@[simp] theorem finish_apply (start : Nat) (make : Span → α) :
    finish start make (l.state b) = .done (make ⟨start, l.cursor.pos⟩) (l.state b) := rfl

@[simp] theorem finish_bind (start : Nat) (make : Span → α) (f : α → Reading β) :
    (finish start make >>= f) (l.state b) = f (make ⟨start, l.cursor.pos⟩) (l.state b) := rfl

/-! What a reading that was done has found. -/

theorem advance_done {t : Token} (hl : l.Ready) (hk : l.hand.kind ≠ .eof) (h : advance (l.state b) = .done t s') :
    t = l.hand ∧ ∃ l', l.Steps l' ∧ s' = l'.state b := by
  unfold advance at h
  dsimp only [Lexer.state] at h
  split at h
  · cases h
  · rename_i t' ht
    cases h
    have hs : l.Steps l.next.after := ⟨hl, hk, rfl, t', ht⟩
    refine ⟨rfl, l.next.after, hs, ?_⟩
    rw [Lexer.state, Lexer.hand_of_outcome ht, ← hs.stop]

theorem accept_done {k : Kind} {c : Bool} (hl : l.Ready) (hk : k ≠ .eof) (h : accept k (l.state b) = .done c s') :
    (c = true ∧ ∃ l', l.Takes k l' ∧ s' = l'.state b) ∨ (c = false ∧ l.hand.kind ≠ k ∧ s' = l.state b) := by
  unfold accept at h
  rw [at_bind] at h
  split at h
  · rename_i hc
    have hc : l.hand.kind = k := by simpa using hc
    obtain ⟨t, s₁, ht, h⟩ := bind_eq_done.1 h
    obtain ⟨-, l', hs, rfl⟩ := advance_done hl (hc ▸ hk) ht
    cases h
    exact .inl ⟨rfl, l', ⟨hs, hc⟩, rfl⟩
  · rename_i hc
    cases h
    exact .inr ⟨rfl, by simpa using hc, rfl⟩

theorem expect_done {k : Kind} {fault : Fault} {t : Token} (hl : l.Ready) (hk : k ≠ .eof)
    (h : expect k fault (l.state b) = .done t s') : t = l.hand ∧ ∃ l', l.Takes k l' ∧ s' = l'.state b := by
  unfold expect at h
  rw [at_bind] at h
  split at h
  · rename_i hc
    have hc : l.hand.kind = k := by simpa using hc
    obtain ⟨ht, l', hs, rfl⟩ := advance_done hl (hc ▸ hk) h
    exact ⟨ht, l', ⟨hs, hc⟩, rfl⟩
  · cases h

/-- A regular expression that was opened by the slash in hand. -/
theorem reread_done {f : Unit → Reading α} {g : Token → Reading α} {a : α} (hl : l.Ready)
    (hs : l.hand.kind = .slash ∨ (l.hand.kind = .compoundAssign ∧ l.hand.text.toList.head? = some '/'))
    (hf : f () = advance >>= g) (h : (rereadRegex >>= f) (l.state b) = .done a s') :
    ∃ u l', l.Rereads u l' ∧ g u (l'.state b) = .done a s' := by
  obtain ⟨_, s₁, h₁, h⟩ := bind_eq_done.1 h
  unfold rereadRegex at h₁
  dsimp only at h₁
  split at h₁
  · cases h₁
  · rename_i u hu
    cases h₁
    rw [hf] at h
    obtain ⟨t, s₂, h₂, h⟩ := bind_eq_done.1 h
    unfold advance at h₂
    dsimp only at h₂
    split at h₂
    · cases h₂
    · rename_i t' ht
      have ht : l.again.after.next.outcome = .ok t' := ht
      cases h₂
      have hr : l.Rereads u l.again.after := ⟨hl, hs, hu, rfl, t', ht⟩
      have hp : u.span.stop = l.again.after.cursor.pos := by rw [hr.span]; rfl
      refine ⟨u, l.again.after, hr, ?_⟩
      rw [Lexer.state, Lexer.hand_of_outcome ht, ← hp]
      exact h

theorem withinFunction_done {x : Reading α} {a : α} (h : withinFunction x (l.state b) = .done a s') :
    ∃ s₁, x (l.state true) = .done a s₁ ∧ s' = { s₁ with inFunction := b } := by
  unfold withinFunction at h
  split at h
  · rename_i s₁ hx
    cases h
    exact ⟨s₁, hx, rfl⟩
  · cases h
  · cases h

/-! What a reading does where it can go on. -/

theorem advance_of_steps (h : l.Steps l') : advance (l.state b) = .done l.hand (l'.state b) := by
  have hs := h.stop
  have hr := h.ready'.outcome
  unfold advance
  dsimp only [Lexer.state]
  rw [← h.after, hr, hs]

/-- A token is not taken where there is none to take in hand behind it. -/
theorem advance_of_error {d : Diagnostic} (h : l.next.after.next.outcome = .error d) :
    advance (l.state b) = .refused d := by
  unfold advance
  dsimp only [Lexer.state]
  rw [h]

theorem accept_of_takes {k : Kind} (h : l.Takes k l') : accept k (l.state b) = .done true (l'.state b) := by
  unfold accept
  rw [at_bind, h.kind, if_pos (beq_self_eq_true k), bind_of_done (advance_of_steps h.toSteps)]
  rfl

theorem accept_of_ne {k : Kind} (h : l.hand.kind ≠ k) : accept k (l.state b) = .done false (l.state b) := by
  unfold accept
  rw [at_bind, if_neg (by simpa using h)]
  rfl

theorem expect_of_takes {k : Kind} {fault : Fault} (h : l.Takes k l') :
    expect k fault (l.state b) = .done l.hand (l'.state b) := by
  unfold expect
  rw [at_bind, h.kind, if_pos (beq_self_eq_true k), advance_of_steps h.toSteps]

/-- The token in hand is read once more, and the regular expression is in hand then. -/
theorem rereadRegex_of_ok {u : Token} (h : l.again.outcome = .ok u) :
    rereadRegex (l.state b) = .done () ⟨u, l.again.start, l.again.after, l.cursor.pos, b⟩ := by
  unfold rereadRegex
  dsimp only
  rw [show Lexer.regexAt (l.state b).start (l.state b).lexer.regexAllowed (l.state b).token.newlineBefore = l.again
    from rfl, h]
  rfl

theorem rereadRegex_of_error {d : Diagnostic} (h : l.again.outcome = .error d) : rereadRegex (l.state b) = .refused d := by
  unfold rereadRegex
  dsimp only
  rw [show Lexer.regexAt (l.state b).start (l.state b).lexer.regexAllowed (l.state b).token.newlineBefore = l.again
    from rfl, h]

theorem reread_of_rereads {f : Unit → Reading α} {g : Token → Reading α} {u : Token} (hr : l.Rereads u l')
    (hf : f () = advance >>= g) : (rereadRegex >>= f) (l.state b) = g u (l'.state b) := by
  have ho := hr.ready'.outcome
  have hp := hr.span
  have h₂ : advance ⟨u, l.again.start, l.again.after, l.cursor.pos, b⟩ = .done u (l'.state b) := by
    unfold advance
    dsimp only
    rw [← hr.after, ho, hp]
    rfl
  rw [bind_of_done (rereadRegex_of_ok hr.outcome), hf, bind_of_done h₂]

theorem withinFunction_of_done {x : Reading α} {a : α} (h : x (l.state true) = .done a (l'.state true)) :
    withinFunction x (l.state b) = .done a (l'.state b) := by
  unfold withinFunction
  rw [show ({ l.state b with inFunction := true } : State) = l.state true from rfl, h]
  rfl

theorem withinFunction_of_refused {x : Reading α} {d : Diagnostic} (h : x (l.state true) = .refused d) :
    withinFunction x (l.state b) = .refused d := by
  unfold withinFunction
  rw [show ({ l.state b with inFunction := true } : State) = l.state true from rfl, h]

end Grammar.Reading

end Readback
