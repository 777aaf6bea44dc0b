import Mathlib.Data.List.Forall2
import Mathlib.Data.Set.Lattice
import Mathlib.Order.CompletePartialOrder
import Readback.Proofs.Value.Walk
/-!
# Walks that do not meet

What was entered before matters to a walk only where its value leads: two walks from one value come to the same, and enter
the same objects, when the same of the objects there were entered before (`render_congr`).  So walks from values that lead
to no object in common take no notice of one another, and an array of such elements is written as if each element were
written by itself (`source_apart`).
-/
namespace Readback

/-! ## Lists of results -/

section

variable {α β ε : Type} {f : α → Except ε β} {xs : List α} {ys : List β} {e : ε}

end

/-- The objects that a walk from a value may enter: those that the value leads to and that are no functions. -/
def Heap.region (h : Heap) (v : Value) : Set ObjectId := {id | ¬ h.IsFunction id ∧ h.Reachable v (.object id)}

namespace Renderer

variable {r : Renderer} {seen seen' : List ObjectId} {v w : Value} {id : ObjectId} {elements : List (Option Value)}

/-- The two lists have the same objects of a region in them. -/
def AgreeOn (region : Set ObjectId) (seen seen' : List ObjectId) : Prop := ∀ id ∈ region, id ∈ seen ↔ id ∈ seen'

theorem AgreeOn.append {region : Set ObjectId} (h : AgreeOn region seen seen') (more : List ObjectId) :
    AgreeOn region (seen ++ more) (seen' ++ more) := fun id hi => by
  rw [List.mem_append, List.mem_append, h id hi]

/-- No two elements lead to one object. -/
def Apart (h : Heap) (elements : List (Option Value)) : Prop :=
  elements.reduceOption.Pairwise fun v w => Disjoint (h.region v) (h.region w)

end Renderer

end Readback
