import Readback.Snippet
import Readback.Value.Evaluate
import Readback.Value.Render
/-!
# Sessions

A session evaluates one snippet after another and writes the values back.  A result that cannot be written out for good
gets a name, made of the history prefix and a count, unless something is bound to it already; later snippets can use the
name, and later results are written with it.  The name is given before the result is written, so it stays even if the
writing fails.
-/
namespace Readback

structure SessionConfig where
  prompt         : String := "> "
  historyName    : String := "$"
  maxArrayLength : Nat := defaultMaxArrayLength
deriving Inhabited

structure Session where
  config   : SessionConfig := {}
  registry : Registry := {}
  heap     : Heap := {}
  /-- How many names were given. -/
  counter  : Nat := 0
deriving Inhabited

namespace Session

/-- The value of a snippet that is one expression, and the heap with it. -/
def evaluate (s : Session) (line : String) : Except Diagnostic (Value × Heap) := do
  let text ← normalize line true
  let e ← parseExpressionAt text 0
  s.heap.evaluate s.registry text e

def renderer (s : Session) : Renderer := ⟨s.heap, s.registry.selectorFor, s.config.maxArrayLength⟩

/-- The kinds of values whose text may depend on a name. -/
def needsName : Kind → Bool
  | .object | .symbol | .array | .error _ => true
  | _ => false

/-- The name that is given next. -/
def nextName (s : Session) : String := s.config.historyName ++ Text.decimal (s.counter + 1)

/-- The session with a name for a value, if the value needs one and has none. -/
def remember (s : Session) (value : Value) : Session :=
  if needsName (s.heap.kindOf value) && !s.registry.names value then
    { s with registry := s.registry.bind s.nextName value, counter := s.counter + 1 }
  else s

/-- Evaluates a snippet, remembers the value, and writes it. -/
def inspect (s : Session) (line : String) : Except Failure String × Session :=
  match s.evaluate line with
  | .error d          => (.error (.diagnostic d), s)
  | .ok (value, heap) =>
    let s := { s with heap := heap }.remember value
    (s.renderer.sourceSafe value, s)

end Session

end Readback
