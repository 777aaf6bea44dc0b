import Mathlib.Data.List.ReduceOption
import Mathlib.Logic.Relation
import Readback.Value.Render
/-!
# What a walk can come to

A walk goes from an array to its elements and from an error to its message.  `Heap.Reachable` is the relation of all that
lies on such ways; what a plan goes on with is one step further (`leads_of_planOf_array`, `leads_of_planOf_error`), so that
no walk leads out of it.
-/
namespace Readback

namespace Heap

/-- One step: from an array to an element, or from an object to its own message. -/
inductive Leads (h : Heap) : Value → Value → Prop where
  | element {id : ObjectId} {o : Object} {elements : List (Option Value)} {v : Value}
      (ho : h.object? id = some o) (hc : o.content = .array elements) (hv : some v ∈ elements) : Leads h (.object id) v
  | message {id : ObjectId} {o : Object} {v : Value}
      (ho : h.object? id = some o) (hm : o.properties.find? "message" = some v) : Leads h (.object id) v

/-- Any number of steps. -/
def Reachable (h : Heap) : Value → Value → Prop := Relation.ReflTransGen h.Leads

theorem Reachable.refl {h : Heap} (v : Value) : h.Reachable v v := Relation.ReflTransGen.refl

theorem Reachable.head {h : Heap} {u v w : Value} (hu : h.Leads u v) (hv : h.Reachable v w) : h.Reachable u w :=
  Relation.ReflTransGen.head hu hv

/-- What a value leads to in one step, as a list: the elements of an array, and the message of an object. -/
def parts (h : Heap) : Value → List Value
  | .object id =>
    match h.object? id with
    | some o =>
      (match o.content with
        | .array elements => elements.reduceOption
        | _               => []) ++ (o.properties.find? "message").toList
    | none   => []
  | _ => []

/-- A text leads to no object. -/
theorem not_reachable_of_text {h : Heap} {s : String} {id : ObjectId} (hr : h.Reachable (.text s) (.object id)) : False := by
  rcases Relation.ReflTransGen.cases_head hr with hr | ⟨w, hw, -⟩
  · cases hr
  · cases hw

/-- The object is a function, which a walk writes and does not enter. -/
def IsFunction (h : Heap) (id : ObjectId) : Prop := ∃ o source, h.object? id = some o ∧ o.content = .function source

end Heap

namespace Renderer

variable {r : Renderer} {kind : Kind} {seen : List ObjectId} {v : Value} {id : ObjectId}

theorem not_isFunction_of_content {o : Object} (ho : r.heap.object? id = some o)
    (hf : ∀ source, o.content ≠ .function source) : ¬ r.heap.IsFunction id := by
  rintro ⟨o', source, ho', hc⟩
  cases ho.symm.trans ho'
  exact hf source hc

theorem plan_unseen {o : Object} (ho : r.heap.object? id = some o) (hf : ∀ source, o.content ≠ .function source) :
    r.plan seen (.object id) = if id ∈ seen then .text (.error .recursion) [] else r.objectPlan id o := by
  unfold plan planOf
  simp only [ho]
  rfl

/-- The elements of an array that is written out are reachable. -/
theorem leads_of_planOf_array {elements : List (Option Value)} {w : Value} (h : r.planOf kind seen v = .array id elements)
    (hw : some w ∈ elements) : r.heap.Leads v w := by
  obtain ⟨rfl, -, o, ho, hc, -⟩ := planOf_array h
  exact .element ho hc hw

/-- The message of an error is reachable, or it is the empty text that an error has for want of one. -/
theorem leads_of_planOf_error {sort : ErrorKind} {message : Value} (h : r.planOf kind seen v = .error id sort message) :
    r.heap.Leads v message ∨ message = .text "" := by
  obtain ⟨rfl, -, o, ho, -, rfl, -⟩ := planOf_error h
  unfold messageOf
  cases hm : o.properties.find? "message" with
  | none   => exact .inr rfl
  | some m => exact .inl (.message ho hm)

end Renderer

end Readback
