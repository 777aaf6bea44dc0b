/-!
# Spans of source text

A span is a pair of byte offsets into the UTF-8 form of a snippet: where a piece of text starts, and where the text
after it starts.  A token, a node of a tree and a diagnostic each carry one.
-/
namespace Readback

structure Span where
  start : Nat
  stop  : Nat
deriving DecidableEq, Inhabited, Repr

namespace Span

/-- From the start of the first span to the end of the second. -/
def through (a b : Span) : Span := ⟨a.start, b.stop⟩

/-- The inner span lies within the outer one. -/
def Within (inner outer : Span) : Prop := outer.start ≤ inner.start ∧ inner.stop ≤ outer.stop

instance (a b : Span) : Decidable (a.Within b) := inferInstanceAs (Decidable (_ ∧ _))

end Span

end Readback
