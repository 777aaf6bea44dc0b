import Readback.Proofs.Grammar.Derives
/-!
# What holds after a reading

A reading is followed step by step with a postcondition on what it read and on the place it got to.  There is one fact
for each thing that a reading can do; a reading that is refused, or that runs out of steps, meets any postcondition.
-/
namespace Readback.Grammar

open Token (Kind)

/-- **Wherever the reading is done, a condition holds** of what it read and of the place it got to. -/
def Yields {α : Type} (b : Bool) (x : Reading α) (l : Lexer) (Q : α → Lexer → Prop) : Prop :=
  ∀ a s', x (l.state b) = .done a s' → ∃ l', l'.Ready ∧ s' = l'.state b ∧ Q a l'

namespace Yields

open Reading

variable {α β : Type} {b : Bool} {l : Lexer} {k : Kind} {x y : Reading α} {f : α → Reading β}
  {P Q : α → Lexer → Prop} {R : β → Lexer → Prop}

theorem bind (hx : Yields b x l P) (hf : ∀ a l', l'.Ready → P a l' → Yields b (f a) l' R) :
    Yields b (x >>= f) l R := by
  intro c s' h
  obtain ⟨a, s₁, h₁, h₂⟩ := bind_eq_done.1 h
  obtain ⟨l₁, hr, rfl, hp⟩ := hx a s₁ h₁
  exact hf a l₁ hr hp c s' h₂

theorem pure {a : α} (hl : l.Ready) (h : Q a l) : Yields b (Pure.pure a) l Q := by
  rintro _ _ ⟨⟩
  exact ⟨l, hl, rfl, h⟩

theorem finish {start : Nat} {make : Span → α} (hl : l.Ready) (h : Q (make ⟨start, l.cursor.pos⟩) l) :
    Yields b (finish start make) l Q := by
  rintro _ _ ⟨⟩
  exact ⟨l, hl, rfl, h⟩

theorem refuseAt {t : Token} {fault : Fault} : Yields b (refuseAt t fault) l Q := by rintro _ _ ⟨⟩

theorem refuse {fault : Fault} : Yields b (refuse fault) l Q := by rintro _ _ ⟨⟩

theorem refuseToken : Yields b refuseToken l Q := by rintro _ _ ⟨⟩

theorem exhausted : Yields b Reading.exhausted l Q := by rintro _ _ ⟨⟩

theorem advance {f : Token → Reading β} (hl : l.Ready) (hk : l.hand.kind ≠ .eof)
    (hf : ∀ l', l.Steps l' → Yields b (f l.hand) l' R) : Yields b (advance >>= f) l R :=
  bind (P := fun t l' => t = l.hand ∧ l.Steps l')
    (fun t s' h => by
      obtain ⟨ht, l', hs, hs'⟩ := advance_done hl hk h
      exact ⟨l', hs.ready', hs', ht, hs⟩)
    (fun t l' _ ⟨ht, hs⟩ => ht ▸ hf l' hs)

/-- The token in hand is taken, and its kind is known. -/
theorem take {f : Token → Reading β} (hl : l.Ready) (hk : l.hand.kind = k) (he : k ≠ .eof)
    (hf : ∀ l', l.Takes k l' → Yields b (f l.hand) l' R) : Yields b (Reading.advance >>= f) l R :=
  advance hl (hk ▸ he) fun l' h => hf l' ⟨h, hk⟩

theorem expect {f : Token → Reading β} {fault : Fault} (hl : l.Ready) (hk : k ≠ .eof)
    (hf : ∀ l', l.Takes k l' → Yields b (f l.hand) l' R) : Yields b (expect k fault >>= f) l R :=
  bind (P := fun t l' => t = l.hand ∧ l.Takes k l')
    (fun t s' h => by
      obtain ⟨ht, l', hs, hs'⟩ := expect_done hl hk h
      exact ⟨l', hs.ready', hs', ht, hs⟩)
    (fun t l' _ ⟨ht, hs⟩ => ht ▸ hf l' hs)

theorem accept {f : Bool → Reading β} (hl : l.Ready) (hk : k ≠ .eof)
    (yes : ∀ l', l.Takes k l' → Yields b (f true) l' R) (no : l.hand.kind ≠ k → Yields b (f false) l R) :
    Yields b (accept k >>= f) l R := by
  refine bind (P := fun c l' => (c = true ∧ l.Takes k l') ∨ (c = false ∧ l.hand.kind ≠ k ∧ l' = l)) ?_ ?_
  · intro c s' h
    rcases accept_done hl hk h with ⟨hc, l', ht, hs⟩ | ⟨hc, hn, hs⟩
    · exact ⟨l', ht.ready', hs, .inl ⟨hc, ht⟩⟩
    · exact ⟨l, hl, hs, .inr ⟨hc, hn, rfl⟩⟩
  · rintro c l' - (⟨rfl, ht⟩ | ⟨rfl, hn, rfl⟩)
    · exact yes l' ht
    · exact no hn

theorem at_ {f : Bool → Reading β} (yes : l.hand.kind = k → Yields b (f true) l R)
    (no : l.hand.kind ≠ k → Yields b (f false) l R) : Yields b (at? k >>= f) l R := by
  by_cases h : l.hand.kind = k
  · intro a s' hd
    rw [at_bind, h, beq_self_eq_true] at hd
    exact yes h a s' hd
  · intro a s' hd
    rw [at_bind, show (l.hand.kind == k) = false by simpa using h] at hd
    exact no h a s' hd

theorem token {f : Token → Reading β} (hf : Yields b (f l.hand) l R) : Yields b (token >>= f) l R := hf
theorem kind {f : Kind → Reading β} (hf : Yields b (f l.hand.kind) l R) : Yields b (kind >>= f) l R := hf
theorem place {f : Nat → Reading β} (hf : Yields b (f l.hand.span.start) l R) : Yields b (place >>= f) l R := hf

theorem withinFunction (hx : Yields true x l Q) : Yields b (withinFunction x) l Q := by
  intro a s' h
  obtain ⟨s₁, h₁, rfl⟩ := withinFunction_done h
  obtain ⟨l', hr, rfl, hq⟩ := hx a s₁ h₁
  exact ⟨l', hr, rfl, hq⟩

theorem imp (hx : Yields b x l P) (h : ∀ a l', P a l' → Q a l') : Yields b x l Q := by
  intro a s' hd
  obtain ⟨l', hr, hs, hp⟩ := hx a s' hd
  exact ⟨l', hr, hs, h a l' hp⟩

end Yields

end Readback.Grammar
