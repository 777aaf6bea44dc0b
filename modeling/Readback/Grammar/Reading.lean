import Readback.Grammar.Fault
import Readback.Token.Lexer
/-!
# Readings

A reading goes over the tokens of a text with one token in hand.  It ends with a value, or with a diagnostic, or because
its allowance of steps ran out; the last never happens to the readings that are offered to callers, which are given more
steps than the text has characters.
-/
namespace Readback.Grammar

open Token (Kind)

structure State where
  /-- The token in hand. -/
  token       : Token
  /-- Where it starts. -/
  start       : Cursor
  /-- What reads the token after it. -/
  lexer       : Lexer
  /-- Where the token before it ended. -/
  previousEnd : Nat
  inFunction  : Bool
deriving Inhabited

/-- The characters from the token in hand on. -/
def State.left (s : State) : Nat := s.start.rest.length

inductive Outcome (α : Type) where
  | done (value : α) (state : State)
  | refused (diagnostic : Diagnostic)
  | exhausted

def Reading (α : Type) : Type := State → Outcome α

namespace Reading

def pure {α : Type} (a : α) : Reading α := fun s => .done a s

def bind {α β : Type} (x : Reading α) (f : α → Reading β) : Reading β := fun s =>
  match x s with
  | .done a s'  => f a s'
  | .refused d  => .refused d
  | .exhausted  => .exhausted

instance : Monad Reading where
  pure := pure
  bind := bind

/-- No steps are left. -/
def exhausted {α : Type} : Reading α := fun _ => .exhausted

/-- The token in hand. -/
def token : Reading Token := fun s => .done s.token s

def kind : Reading Kind := fun s => .done s.token.kind s

/-- Whether the token in hand is of a kind. -/
def at? (k : Kind) : Reading Bool := fun s => .done (s.token.kind == k) s

def inFunction : Reading Bool := fun s => .done s.inFunction s

/-- Where the token in hand starts. -/
def place : Reading Nat := fun s => .done s.token.span.start s

def refuseAt {α : Type} (t : Token) (fault : Fault) : Reading α := fun _ =>
  .refused ⟨.parser, fault.message, some t.span, []⟩

def refuse {α : Type} (fault : Fault) : Reading α := fun s => refuseAt s.token fault s

def refuseToken {α : Type} : Reading α := fun s => refuseAt s.token (.unexpectedToken s.token.text) s

/-- Takes the token in hand; the next one must be there to be taken in hand. -/
def advance : Reading Token := fun s =>
  let step := s.lexer.next
  match step.outcome with
  | .error d => .refused d
  | .ok t    => .done s.token ⟨t, step.start, step.after, s.token.span.stop, s.inFunction⟩

/-- Takes the token in hand if it is of a kind, and tells whether it was. -/
def accept (k : Kind) : Reading Bool := do
  if ← at? k then
    let _ ← advance
    return true
  else
    return false

/-- Takes the token in hand, which has to be of a kind. -/
def expect (k : Kind) (fault : Fault) : Reading Token := do
  if ← at? k then advance else refuse fault

/-- Reads the token in hand once more, as a regular expression. -/
def rereadRegex : Reading Unit := fun s =>
  let step := Lexer.regexAt s.start s.lexer.regexAllowed s.token.newlineBefore
  match step.outcome with
  | .error d => .refused d
  | .ok t    => .done () { s with token := t, start := step.start, lexer := step.after }

/-- What stands between a place and the end of the last token taken. -/
def finish {α : Type} (start : Nat) (make : Span → α) : Reading α := fun s => .done (make ⟨start, s.previousEnd⟩) s

/-- A reading of the body of a function, where a value may be returned. -/
def withinFunction {α : Type} (x : Reading α) : Reading α := fun s =>
  match x { s with inFunction := true } with
  | .done a s' => .done a { s' with inFunction := s.inFunction }
  | .refused d => .refused d
  | .exhausted => .exhausted

/-- A statement may end here without a semicolon. -/
def atStatementEnd : Reading Bool := fun s =>
  .done (s.token.newlineBefore || s.token.kind == .semicolon || s.token.kind == .rBrace || s.token.kind == .eof) s

/-- A statement ends: with a semicolon, or where it may do without one. -/
def endStatement : Reading Unit := do
  if ← accept .semicolon then return ()
  else if ← atStatementEnd then return ()
  else refuseToken

end Reading

/-- The state before the first token. -/
def State.first (l : Lexer) : Except Diagnostic State :=
  let step := l.next
  step.outcome.map (fun t => ⟨t, step.start, step.after, t.span.start, false⟩)

end Readback.Grammar
