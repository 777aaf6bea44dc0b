import Readback.Proofs.Grammar.Complete
import Readback.Proofs.Grammar.Extent
/-!
# One reading of a text

The rules read what the grammar has, so from one place the grammar has one expression.  It may end at two places that are
not the same, but that no reading can tell apart.
-/
namespace Readback.Grammar

open Token (Kind)

variable {b : Bool} {l l' l'' m : Lexer} {e e' : Expr} {k : Kind}

/-- Places with the same token in hand, from which reading goes on at the same place. -/
structure Alike (l l' : Lexer) : Prop where
  hand  : l.hand = l'.hand
  after : l.next.after = l'.next.after

theorem alike_of_state (h : l.state b = l'.state b) : Alike l l' :=
  ⟨congrArg State.token h, congrArg State.lexer h⟩

theorem Alike.symm (h : Alike l l') : Alike l' l := ⟨h.hand.symm, h.after.symm⟩

/-- From alike places the same token is taken. -/
theorem Alike.takes (h : Alike l l') (hl : l'.Ready) (ht : l.Takes k m) : l'.Takes k m :=
  ⟨⟨hl, h.hand ▸ ht.more, h.after ▸ ht.after, ht.ready'⟩, h.hand ▸ ht.kind⟩

theorem ready_of_goes (h : l.Goes l') (hl : l.Ready) : l'.Ready := by
  induction h with
  | stay => exact hl
  | step h₁ _ ih => exact ih h₁.ready'
  | reread h₁ _ ih => exact ih h₁.ready'

theorem Derives.ready {p : Phrase} {a : p.Result} (h : Derives b p l a l') (hl : l.Ready) : l'.Ready :=
  ready_of_goes h.goes hl

/-- A reading has one result. -/
theorem alike_of_done {α : Type} {x : Reading α} {a a' : α} (h : x (l.state b) = .done a (l'.state b))
    (h' : x (l.state b) = .done a' (l''.state b)) : a = a' ∧ Alike l' l'' := by
  obtain ⟨ha, hl⟩ := Outcome.done.inj (h.symm.trans h')
  exact ⟨ha, alike_of_state hl⟩

/-- **There is one expression at a place.** -/
theorem Derives.unique (h : Derives b .expression l e l') (h' : Derives b .expression l e' l'') :
    e = e' ∧ Alike l' l'' :=
  alike_of_done (h.complete l.left (Nat.le_refl _)) (h'.complete l.left (Nat.le_refl _))

/-- There is one assignment at a place. -/
theorem Derives.unique_assignment (h : Derives b .assignment l e l') (h' : Derives b .assignment l e' l'') :
    e = e' ∧ Alike l' l'' :=
  alike_of_done (h.complete l.left (Nat.le_refl _)) (h'.complete l.left (Nat.le_refl _))

end Readback.Grammar
