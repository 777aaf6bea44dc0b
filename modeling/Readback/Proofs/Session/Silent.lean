import Readback.Command
import Readback.Proofs.Value.Failure
/-!
# Lines that leave no trace

A blank line is passed over, and a line that cannot be inspected is answered with a complaint.  Neither changes the session:
a result is bound before it is written, but a result that was bound can always be written.  So the output of a console is that
of the other lines (`Console.run_telling`).
-/
namespace Readback

/-- **An inspection that fails leaves the session as it was.** -/
theorem Session.inspect_error {s : Session} {text : String} {f : Failure} (h : (s.inspect text).1 = .error f) :
    (s.inspect text).2 = s := by
  unfold Session.inspect at h ⊢
  split at h
  · rfl
  · -- what is written for good has no failures
    obtain ⟨written, hw⟩ := Renderer.sourceSafe_ok _ _
    cases hw.symm.trans h

theorem Answer.output_append (prints more : List Console.Print) (status : Nat) :
    (Answer.mk (prints ++ more) status).output = (Answer.mk prints status).output ++ (Answer.mk more status).output := by
  simp only [Answer.output, List.map_append, String.join_append]

namespace Console

variable {s s' : Session} {line : Line} {prints : List Print}

/-- The line is blank, or its inspection fails where it is reached. -/
def silent (s : Session) : Line → Bool
  | .blank            => true
  | .snippet text     => !(s.inspect text).1.isOk
  | .quit | .bindings => false

/-- The session behind a line.  The line that ends the console leaves it as it is. -/
def after (s : Session) (line : Line) : Session := ((step s line).map Prod.snd).getD s

/-- The lines without those that are silent where the console reaches them. -/
def telling (s : Session) : List (List Char) → List (List Char)
  | []           => []
  | line :: rest =>
    let later := telling (after s (.ofText line)) rest
    if silent s (.ofText line) then later else line :: later

theorem after_of_step (h : step s line = some (prints, s')) : after s line = s' := by
  rw [after, h]
  rfl

/-- **A silent line prints nothing to the standard output**, and behind it is the session that was in front of it. -/
theorem step_silent (h : silent s line = true) :
    ∃ prints, step s line = some (prints, s) ∧ (Answer.mk prints 0).output = "" := by
  cases line with
  | blank => exact ⟨[], rfl, rfl⟩
  | quit => cases h
  | bindings => cases h
  | snippet text =>
    cases hi : (s.inspect text).1 with
    | ok written => simp [silent, hi, Except.isOk, Except.toBool] at h
    | error f =>
      have hs : step s (.snippet text) = some ([answer (.error f)], s) := by
        unfold step
        dsimp only
        rw [hi, Session.inspect_error hi]
      refine ⟨_, hs, ?_⟩
      cases f <;> rfl

theorem run_cons_of_step (h : step s line = some (prints, s')) (rest : List Line) :
    run s (line :: rest) = (prints ++ (run s' rest).1, (run s' rest).2) := by
  rw [run, h]

theorem run_cons_of_end (h : step s line = none) (rest : List Line) : run s (line :: rest) = ([], s) := by
  rw [run, h]

/-- **Lines that fail leave no trace.**  Without its blank lines, and without the lines whose inspection fails where they are
reached, a console prints the same to the standard output, and ends with the same session. -/
theorem run_telling (s : Session) (lines : List (List Char)) :
    let all := run s (lines.map .ofText)
    let told := run s ((telling s lines).map .ofText)
    (Answer.mk told.1 0).output = (Answer.mk all.1 0).output ∧ told.2 = all.2 := by
  induction lines generalizing s with
  | nil => exact ⟨rfl, rfl⟩
  | cons line rest ih =>
    obtain ⟨hout, hlast⟩ := ih (after s (.ofText line))
    cases hs : silent s (.ofText line) with
    | true =>
      obtain ⟨prints, hstep, hp⟩ := step_silent hs
      rw [after_of_step hstep] at hout hlast
      simp only [telling, hs, if_true, after_of_step hstep, List.map_cons, run_cons_of_step hstep, Answer.output_append, hp,
        String.empty_append]
      exact ⟨hout, hlast⟩
    | false =>
      simp only [telling, hs, Bool.false_eq_true, if_false, List.map_cons]
      cases hstep : step s (.ofText line) with
      | none =>
        rw [run_cons_of_end hstep, run_cons_of_end hstep]
        exact ⟨rfl, rfl⟩
      | some p =>
        obtain ⟨prints, s'⟩ := p
        rw [after_of_step hstep] at hout hlast ⊢
        rw [run_cons_of_step hstep, run_cons_of_step hstep]
        exact ⟨by rw [Answer.output_append, Answer.output_append, hout], hlast⟩

end Console

end Readback
