import Readback.Proofs.Grammar.Read
/-!
# Readings that end alike

Two readings are followed side by side.  They come to the same end: both are refused with one diagnostic, or both are done
with one value at one place, of which a condition holds.  Neither runs out of steps.  There is one fact for each thing that
a reading can do.
-/
namespace Readback.Grammar

open Token (Kind)

/-- **Both readings come to the same end**, and a condition holds of the place where they are done. -/
inductive Ends {α : Type} (b : Bool) (x y : Reading α) (l : Lexer) (Q : Lexer → Prop) : Prop
  | refused {d : Diagnostic} (hx : x (l.state b) = .refused d) (hy : y (l.state b) = .refused d)
  | done {a : α} {l' : Lexer} (hx : x (l.state b) = .done a (l'.state b)) (hy : y (l.state b) = .done a (l'.state b))
      (hl : l'.Ready) (hq : Q l')

namespace Ends

open Reading

variable {α β : Type} {b : Bool} {l : Lexer} {k : Kind} {x y x' y' : Reading α} {P Q : Lexer → Prop}

theorem eq (h : Ends b x y l Q) : x (l.state b) = y (l.state b) := by
  cases h with
  | refused hx hy => rw [hx, hy]
  | done hx hy => rw [hx, hy]

theorem ne_exhausted (h : Ends b x y l Q) : x (l.state b) ≠ .exhausted := by
  cases h with
  | refused hx => rw [hx]; nofun
  | done hx => rw [hx]; nofun

theorem imp (h : Ends b x y l P) (hpq : ∀ l', P l' → Q l') : Ends b x y l Q := by
  cases h with
  | refused hx hy => exact .refused hx hy
  | done hx hy hl hp => exact .done hx hy hl (hpq _ hp)

/-- The readings go on as others do from another place. -/
theorem goesOn {l₁ : Lexer} (hx : x (l.state b) = x' (l₁.state b)) (hy : y (l.state b) = y' (l₁.state b))
    (h : Ends b x' y' l₁ Q) : Ends b x y l Q := by
  cases h with
  | refused hx' hy' => exact .refused (hx.trans hx') (hy.trans hy')
  | done hx' hy' hl hq => exact .done (hx.trans hx') (hy.trans hy') hl hq

theorem bind {f g : α → Reading β} (h : Ends b x y l P) (hf : ∀ a l', l'.Ready → P l' → Ends b (f a) (g a) l' Q) :
    Ends b (x >>= f) (y >>= g) l Q := by
  cases h with
  | refused hx hy => exact .refused (bind_of_refused hx) (bind_of_refused hy)
  | done hx hy hl hp => exact .goesOn (bind_of_done hx) (bind_of_done hy) (hf _ _ hl hp)

theorem pure {a : α} (hl : l.Ready) (h : Q l) : Ends b (Pure.pure a) (Pure.pure a) l Q := .done rfl rfl hl h

theorem finish {start : Nat} {make : Span → α} (hl : l.Ready) (h : Q l) :
    Ends b (Reading.finish start make) (Reading.finish start make) l Q := .done rfl rfl hl h

theorem refuseAt {t : Token} {fault : Fault} :
    Ends b (Reading.refuseAt t fault : Reading α) (Reading.refuseAt t fault) l Q := .refused rfl rfl

theorem refuse {fault : Fault} : Ends b (Reading.refuse fault : Reading α) (Reading.refuse fault) l Q := .refused rfl rfl

theorem refuseToken : Ends b (Reading.refuseToken : Reading α) Reading.refuseToken l Q := .refused rfl rfl

section

variable {f g : Token → Reading β}

theorem token (h : Ends b (f l.hand) (g l.hand) l Q) : Ends b (token >>= f) (token >>= g) l Q :=
  goesOn token_bind token_bind h

theorem advance (hl : l.Ready) (hk : l.hand.kind ≠ .eof)
    (hf : ∀ l', l.Steps l' → Ends b (f l.hand) (g l.hand) l' Q) : Ends b (advance >>= f) (advance >>= g) l Q := by
  cases ho : l.next.after.next.outcome with
  | error d => exact .refused (bind_of_refused (advance_of_error ho)) (bind_of_refused (advance_of_error ho))
  | ok t =>
    have hs : l.Steps l.next.after := ⟨hl, hk, rfl, t, ho⟩
    exact .goesOn (bind_of_done (advance_of_steps hs)) (bind_of_done (advance_of_steps hs)) (hf _ hs)

/-- The token in hand is taken, and its kind is known. -/
theorem take (hl : l.Ready) (hk : l.hand.kind = k) (he : k ≠ .eof)
    (hf : ∀ l', l.Takes k l' → Ends b (f l.hand) (g l.hand) l' Q) :
    Ends b (Reading.advance >>= f) (Reading.advance >>= g) l Q :=
  advance hl (hk ▸ he) fun l' h => hf l' ⟨h, hk⟩

theorem expect {fault : Fault} (hl : l.Ready) (hk : k ≠ .eof)
    (hf : ∀ l', l.Takes k l' → Ends b (f l.hand) (g l.hand) l' Q) :
    Ends b (expect k fault >>= f) (expect k fault >>= g) l Q := by
  by_cases h : l.hand.kind = k
  · have he : Reading.expect k fault (l.state b) = Reading.advance (l.state b) := by
      unfold Reading.expect
      rw [at_bind, h, beq_self_eq_true, if_pos rfl]
    have hbind : ∀ f : Token → Reading β, (Reading.expect k fault >>= f) (l.state b) = (Reading.advance >>= f) (l.state b) :=
      fun f => by rw [bind_apply, bind_apply, he]
    exact goesOn (hbind f) (hbind g) (take hl h hk hf)
  · have he : Reading.expect k fault (l.state b) = Reading.refuse fault (l.state b) := by
      unfold Reading.expect
      rw [at_bind, if_neg (by simpa using h)]
    exact .refused (bind_of_refused he) (bind_of_refused he)

end

theorem kind {f g : Kind → Reading β} (h : Ends b (f l.hand.kind) (g l.hand.kind) l Q) :
    Ends b (kind >>= f) (kind >>= g) l Q := goesOn kind_bind kind_bind h

theorem place {f g : Nat → Reading β} (h : Ends b (f l.hand.span.start) (g l.hand.span.start) l Q) :
    Ends b (place >>= f) (place >>= g) l Q := goesOn place_bind place_bind h

section

variable {f g : Bool → Reading β}

theorem inFunction (h : Ends b (f b) (g b) l Q) : Ends b (inFunction >>= f) (inFunction >>= g) l Q :=
  goesOn inFunction_bind inFunction_bind h

theorem at_ (yes : l.hand.kind = k → Ends b (f true) (g true) l Q)
    (no : l.hand.kind ≠ k → Ends b (f false) (g false) l Q) : Ends b (at? k >>= f) (at? k >>= g) l Q := by
  refine goesOn at_bind at_bind ?_
  by_cases h : l.hand.kind = k
  · rw [h, beq_self_eq_true]
    exact yes h
  · rw [show (l.hand.kind == k) = false by simpa using h]
    exact no h

theorem accept (hl : l.Ready) (hk : k ≠ .eof) (yes : ∀ l', l.Takes k l' → Ends b (f true) (g true) l' Q)
    (no : l.hand.kind ≠ k → Ends b (f false) (g false) l Q) : Ends b (accept k >>= f) (accept k >>= g) l Q := by
  by_cases h : l.hand.kind = k
  · have hbind : ∀ f : Bool → Reading β,
        (Reading.accept k >>= f) (l.state b) = (Reading.advance >>= fun _ => f true) (l.state b) := by
      intro f
      have ha : Reading.accept k (l.state b) = (Reading.advance >>= fun _ => Pure.pure true) (l.state b) := by
        unfold Reading.accept
        rw [at_bind, h, beq_self_eq_true, if_pos rfl]
      rw [bind_apply, ha, bind_apply, bind_apply]
      cases Reading.advance (l.state b) <;> rfl
    exact goesOn (hbind f) (hbind g) (take hl h hk yes)
  · exact goesOn (bind_of_done (accept_of_ne h)) (bind_of_done (accept_of_ne h)) (no h)

/-- The statement ends here, or it does not. -/
theorem atStatementEnd (h : ∀ c, Ends b (f c) (g c) l Q) : Ends b (atStatementEnd >>= f) (atStatementEnd >>= g) l Q := by
  have hbind : ∀ f : Bool → Reading β,
      (Reading.atStatementEnd >>= f) (l.state b) = f (endsStatement l.hand) (l.state b) := fun _ => rfl
  exact goesOn (hbind f) (hbind g) (h _)

end

theorem withinFunction (h : Ends true x y l Q) : Ends b (withinFunction x) (withinFunction y) l Q := by
  cases h with
  | refused hx hy => exact .refused (withinFunction_of_refused hx) (withinFunction_of_refused hy)
  | done hx hy hl hq => exact .done (withinFunction_of_done hx) (withinFunction_of_done hy) hl hq

end Ends

end Readback.Grammar
