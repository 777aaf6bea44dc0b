import Readback.Value.Basic
/-!
# Kinds of values

What a value is taken for.  A regular expression, a date and an array count as such only while they have their own
intrinsic prototype, and an object is an error if it was made as one or inherits from the prototype of errors; which
error it is, its own prototype says.  The search for that prototype does not come back from a chain of prototypes that has
no end, and then there is no kind (`kindOf?`).
-/
namespace Readback

inductive Kind where
  | absent | number | boolean | text | symbol
  | function | regexp | date | array
  /-- Without a sort, when the constructor is not one of those that can be written down. -/
  | error (sort : Option ErrorKind)
  | object
deriving DecidableEq, Inhabited, Repr

namespace Kind

/-- What a value without a selector is called. -/
def referenceName : Kind → String
  | .symbol   => "symbol"
  | .function => "function"
  | _         => "object"

/-- The kinds whose values may be written as a selector. -/
def isSelectable : Kind → Bool
  | .symbol | .regexp | .date | .array | .error _ | .object => true
  | _ => false

end Kind

/-- The sort of error whose prototype an object has as its own. -/
def Object.errorSort (o : Object) : Option ErrorKind :=
  match o.proto with
  | .intrinsic (.error sort) => some sort
  | _ => none

/-- The kind of an object that its content decides, with the prototype that goes with it. -/
def Object.ownKind? (o : Object) : Option Kind :=
  match o.content, o.proto with
  | .function _, _                => some .function
  | .regexp _ _, .intrinsic .regexp => some .regexp
  | .date _, .intrinsic .date     => some .date
  | .array _, .intrinsic .array   => some .array
  | _, _                          => none

namespace Heap

/-- The kind of an object, if the search for it comes back: what is no error by its content is asked whether it inherits from
errors. -/
def objectKind? (h : Heap) (o : Object) : Option Kind :=
  match o.ownKind? with
  | some kind => some kind
  | none      =>
    if o.content = .error then some (.error o.errorSort)
    else (h.inherits? o (.error .error)).map fun found => if found then .error o.errorSort else .object

/-- The kind of a value, if the search for it comes back. -/
def kindOf? (h : Heap) : Value → Option Kind
  | .undefined | .null => some .absent
  | .bool _    => some .boolean
  | .number _  => some .number
  | .text _    => some .text
  | .symbol _  => some .symbol
  | .object id =>
    match h.object? id with
    | some o => h.objectKind? o
    | none   => some .object

/-- The same, with an object like any other for an answer where the search does not come back. -/
def objectKind (h : Heap) (o : Object) : Kind := (h.objectKind? o).getD .object

def kindOf (h : Heap) (value : Value) : Kind := (h.kindOf? value).getD .object

theorem objectKind_eq (h : Heap) (o : Object) : h.objectKind o =
    match o.ownKind? with
    | some kind => kind
    | none      => if o.content = .error ∨ h.inherits o (.error .error) = true then .error o.errorSort else .object := by
  unfold objectKind objectKind? inherits
  cases o.ownKind? with
  | some kind => rfl
  | none =>
    by_cases hc : o.content = .error
    · simp [hc]
    · cases h.inherits? o (.error .error) with
      | none => simp [hc]
      | some found => simp [hc]

theorem kindOf_object {h : Heap} {id : ObjectId} {o : Object} (ho : h.object? id = some o) :
    h.kindOf (.object id) = h.objectKind o := by
  simp only [kindOf, kindOf?, ho, objectKind]

end Heap

end Readback
