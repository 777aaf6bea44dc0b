import Readback.Date.Text
import Readback.Failure
import Readback.Number.Text
import Readback.Text.Quoted
import Readback.Value.Kind
import Readback.Value.Registry
/-!
# Values as source text

A primitive is written as a literal, and a function, a regular expression, a date, an array or an error as what it is
made from.  Any other object, and every symbol, is written as its selector.

A walk enters each object on its way once, and enters no function.  An object that was entered before is not written
again: an array that comes upon such an element is written as its selector, and so is an error whose message cannot be
written.  What was entered stays so, even when the text it was entered for is given up.  So a walk ends on every heap, by
the objects it has not entered yet, unless it asks for a kind and the search for that does not come back.  There is one
`walk`, and how it asks is given to it: `render?` is the walk that may not come back, and `render` the one that always does.
-/
namespace Readback

-- The sum of natural numbers starts from the zero that comes with them, whatever other instances are there.
attribute [local instance (2000)] Zero.ofOfNat0

namespace Heap

/-- How many elements an object has. -/
def elementCount (o : Object) : Nat :=
  match o.content with
  | .array elements => elements.length
  | _               => 0

theorem elementCount_of_content {o : Object} {elements : List (Option Value)} (hc : o.content = .array elements) :
    elementCount o = elements.length := by
  simp [elementCount, hc]

/-- What the object at an index may still cost a walk that has entered the objects seen: nothing if it is one of them,
else a step for the object and one for each element. -/
def costAt (h : Heap) (seen : List ObjectId) (i : Nat) : Nat :=
  if ObjectId.mk i ∈ seen then 0
  else
    match h.objects[i]? with
    | some o => elementCount o + 2
    | none   => 0

/-- What all objects may still cost. -/
def cost (h : Heap) (seen : List ObjectId) : Nat := ((List.range h.objects.size).map (h.costAt seen)).sum

theorem costAt_append_le (h : Heap) (seen more : List ObjectId) (i : Nat) :
    h.costAt (seen ++ more) i ≤ h.costAt seen i := by
  unfold costAt
  by_cases hs : ObjectId.mk i ∈ seen
  · simp [hs]
  · by_cases hm : ObjectId.mk i ∈ more
    · simp [hm]
    · simp [hs, hm]

theorem sum_map_le {α : Type} (f g : α → Nat) : ∀ (l : List α), (∀ x ∈ l, f x ≤ g x) → (l.map f).sum ≤ (l.map g).sum
  | [], _     => Nat.le_refl _
  | x :: l, h => by
    simp only [List.map_cons, List.sum_cons]
    have h1 := h x (by simp)
    have h2 := sum_map_le f g l (fun y hy => h y (by simp [hy]))
    omega

/-- Entering more objects does not make a walk longer. -/
theorem cost_append_le (h : Heap) (seen more : List ObjectId) : h.cost (seen ++ more) ≤ h.cost seen :=
  sum_map_le _ _ _ (fun i _ => costAt_append_le h seen more i)

/-- Entering an object pays for its elements. -/
theorem cost_enter {h : Heap} {seen : List ObjectId} {id : ObjectId} {o : Object} (ho : h.object? id = some o)
    (hs : id ∉ seen) : h.cost (seen ++ [id]) + (elementCount o + 2) ≤ h.cost seen := by
  have mem : id.index ∈ List.range h.objects.size := List.mem_range.2 (Array.getElem?_eq_some_iff.1 ho).1
  obtain ⟨a, b, hab⟩ := List.append_of_mem mem
  have le : ∀ l : List Nat, (l.map (h.costAt (seen ++ [id]))).sum ≤ (l.map (h.costAt seen)).sum :=
    fun l => sum_map_le _ _ l (fun i _ => costAt_append_le h seen [id] i)
  have before : h.costAt seen id.index = elementCount o + 2 := by
    have : ¬ ObjectId.mk id.index ∈ seen := hs
    unfold costAt
    rw [if_neg this, show h.objects[id.index]? = some o from ho]
  have behind : h.costAt (seen ++ [id]) id.index = 0 := by
    unfold costAt
    rw [if_pos (by simp)]
  have ha := le a
  have hb := le b
  unfold cost
  rw [hab]
  simp only [List.map_append, List.map_cons, List.sum_append, List.sum_cons, before, behind]
  omega

end Heap

/-- What a walk comes to: a text or an error, and the objects it entered, in order. -/
structure Rendering (α : Type) where
  outcome : Except Failure α
  entered : List ObjectId

/-- Arrays with more elements than this are named and not written out. -/
def defaultMaxArrayLength : Nat := 100

structure Renderer where
  heap           : Heap
  resolver       : Resolver
  maxArrayLength : Nat := defaultMaxArrayLength

namespace Renderer

/-- The selector of a value of a kind that may have one; an empty one counts for nothing. -/
def selector (r : Renderer) (kind : Kind) (value : Value) : Except Failure String :=
  if kind.isSelectable then
    match (r.resolver value).filter (· != "") with
    | some path => .ok path
    | none      => .error (.noSelector kind.referenceName)
  else .error (.unsupported (value.typeOf r.heap))

/-- The texts of elements between brackets.  A comma at the end of a list counts for nothing, so a hole there needs one
more. -/
def arrayText (elements : List (Option Value)) (texts : List String) : String :=
  "[" ++ ", ".intercalate texts ++ (if elements.getLast? = some none then ",]" else "]")

def regexpText (pattern flags : String) : String := "/" ++ (if pattern = "" then "(?:)" else pattern) ++ "/" ++ flags

def dateText (time : Number) : String := "Date('" ++ (Date.text? time).getD "null" ++ "')"

/-- What an error has as its message; the prototypes of errors have an empty one. -/
def messageOf (o : Object) : Value := (o.properties.find? "message").getD (.text "")

/-- What has to be written before a value can be: nothing, when its text is there or never will be; the elements of an
array; or the message of an error. -/
inductive Plan where
  | text (outcome : Except Failure String) (entered : List ObjectId)
  | array (id : ObjectId) (elements : List (Option Value))
  | error (id : ObjectId) (sort : ErrorKind) (message : Value)

/-- The plan for an object of a kind, which is entered for the first time.  It is written out by its kind, as far as its content
bears that out; any other is written as its selector. -/
def objectPlanOf (r : Renderer) (kind : Kind) (id : ObjectId) (o : Object) : Plan :=
  match kind, o.content with
  | .regexp, .regexp pattern flags => .text (.ok (regexpText pattern flags)) [id]
  | .date, .date time              => .text (.ok (dateText time)) [id]
  | .array, .array elements        =>
    if r.maxArrayLength < elements.length then .text (r.selector .array (.object id)) [id] else .array id elements
  | .error (some sort), _          =>
    if messageOf o = .undefined then .text (.ok (sort.name ++ "()")) [id] else .error id sort (messageOf o)
  | kind, _                        => .text (r.selector kind (.object id)) [id]

/-- The plan for a value of a kind, when these objects were entered before.  A function is written without being entered. -/
def planOf (r : Renderer) (kind : Kind) (seen : List ObjectId) (value : Value) : Plan :=
  match value with
  | .undefined => .text (.ok "undefined") []
  | .null      => .text (.ok "null") []
  | .bool b    => .text (.ok (if b then "true" else "false")) []
  | .number x  => .text (.ok x.source) []
  | .text s    => .text (.ok (Text.quote s)) []
  | .symbol _  => .text (r.selector kind value) []
  | .object id =>
    match r.heap.object? id with
    | none   => if id ∈ seen then .text (.error .recursion) [] else .text (r.selector kind value) [id]
    | some o =>
      match o.content with
      | .function source => .text (.ok source) []
      | _                => if id ∈ seen then .text (.error .recursion) [] else r.objectPlanOf kind id o

def objectPlan (r : Renderer) (id : ObjectId) (o : Object) : Plan := r.objectPlanOf (r.heap.kindOf (.object id)) id o

/-- The plan for a value of the kind it has. -/
def plan (r : Renderer) (seen : List ObjectId) (value : Value) : Plan := r.planOf (r.heap.kindOf value) seen value

section

variable {r : Renderer} {kind : Kind} {seen : List ObjectId} {v : Value} {id i : ObjectId} {o : Object}

theorem objectPlanOf_array {elements : List (Option Value)} (h : r.objectPlanOf kind id o = .array i elements) :
    i = id ∧ o.content = .array elements ∧ kind = .array ∧ elements.length ≤ r.maxArrayLength := by
  unfold objectPlanOf at h
  split at h <;> try split at h
  all_goals cases h
  rename_i hc hl
  exact ⟨rfl, hc, rfl, Nat.le_of_not_lt hl⟩

theorem objectPlanOf_error {sort : ErrorKind} {message : Value} (h : r.objectPlanOf kind id o = .error i sort message) :
    i = id ∧ kind = .error (some sort) ∧ message = messageOf o ∧ message ≠ .undefined := by
  unfold objectPlanOf at h
  split at h <;> try split at h
  all_goals cases h
  rename_i hm
  exact ⟨rfl, rfl, rfl, hm⟩

/-- A plan other than a text is for an object that was not entered before. -/
theorem planOf_object (h : ∀ outcome entered, r.planOf kind seen v ≠ .text outcome entered) :
    ∃ id o, v = .object id ∧ r.heap.object? id = some o ∧ id ∉ seen ∧
      r.planOf kind seen v = r.objectPlanOf kind id o := by
  unfold planOf at h ⊢
  split at h <;> try exact absurd rfl (h _ _)
  rename_i id
  split at h
  · split at h <;> exact absurd rfl (h _ _)
  · rename_i o ho
    split at h
    · exact absurd rfl (h _ _)
    · rename_i hf
      split at h
      · exact absurd rfl (h _ _)
      · rename_i hs
        exact ⟨id, o, rfl, ho, hs, if_neg hs⟩

/-- **What a plan for an array checked.** -/
theorem planOf_array {elements : List (Option Value)} (h : r.planOf kind seen v = .array id elements) :
    v = .object id ∧ id ∉ seen ∧ ∃ o, r.heap.object? id = some o ∧ o.content = .array elements ∧ kind = .array ∧
      elements.length ≤ r.maxArrayLength := by
  obtain ⟨i, o, rfl, ho, hs, hp⟩ := @planOf_object r kind seen v (by rw [h]; simp)
  obtain ⟨rfl, hc, hk, hl⟩ := objectPlanOf_array (hp.symm.trans h)
  exact ⟨rfl, hs, o, ho, hc, hk, hl⟩

/-- **What a plan for an error checked.** -/
theorem planOf_error {sort : ErrorKind} {message : Value} (h : r.planOf kind seen v = .error id sort message) :
    v = .object id ∧ id ∉ seen ∧ ∃ o, r.heap.object? id = some o ∧ kind = .error (some sort) ∧ message = messageOf o ∧
      message ≠ .undefined := by
  obtain ⟨i, o, rfl, ho, hs, hp⟩ := @planOf_object r kind seen v (by rw [h]; simp)
  obtain ⟨rfl, hk, hm, hu⟩ := objectPlanOf_error (hp.symm.trans h)
  exact ⟨rfl, hs, o, ho, hk, hm, hu⟩

theorem cost_of_planOf_array {elements : List (Option Value)} (h : r.planOf kind seen v = .array id elements) :
    r.heap.cost (seen ++ [id]) + (elements.length + 2) ≤ r.heap.cost seen := by
  obtain ⟨-, hs, o, ho, hc, -⟩ := planOf_array h
  rw [← Heap.elementCount_of_content hc]
  exact Heap.cost_enter ho hs

theorem cost_of_planOf_error {sort : ErrorKind} {message : Value} (h : r.planOf kind seen v = .error id sort message) :
    r.heap.cost (seen ++ [id]) < r.heap.cost seen := by
  obtain ⟨-, hs, o, ho, -⟩ := planOf_error h
  have := Heap.cost_enter ho hs
  omega

end

/-- The text of an array, from those of its elements; its selector, when one of them was entered before. -/
def arrayOutcome (r : Renderer) (id : ObjectId) (elements : List (Option Value)) :
    Except Failure (List String) → Except Failure String
  | .ok texts         => .ok (arrayText elements texts)
  | .error .recursion => r.selector .array (.object id)
  | .error e          => .error e

/-- The text of an error, from that of its message; its selector, when the message has no text. -/
def errorOutcome (r : Renderer) (id : ObjectId) (sort : ErrorKind) : Except Failure String → Except Failure String
  | .ok text => .ok (sort.name ++ "(" ++ text ++ ")")
  | .error _ => r.selector (.error (some sort)) (.object id)

section

variable {m : Type → Type} [Monad m]

mutual

/-- A walk from a value, when these objects were entered before.  First of all it asks for the kind of the value, by
whatever means there are. -/
def walk (r : Renderer) (ask : Value → m Kind) (seen : List ObjectId) (value : Value) : m (Rendering String) := do
  let kind ← ask value
  match h : r.planOf kind seen value with
  | .text outcome entered  => return ⟨outcome, entered⟩
  | .array id elements     =>
    have := cost_of_planOf_array h
    let items ← r.walkItems ask (seen ++ [id]) elements
    return ⟨r.arrayOutcome id elements items.outcome, id :: items.entered⟩
  | .error id sort message =>
    have := cost_of_planOf_error h
    let inner ← r.walk ask (seen ++ [id]) message
    return ⟨r.errorOutcome id sort inner.outcome, id :: inner.entered⟩
termination_by r.heap.cost seen
decreasing_by all_goals omega

/-- The texts of elements, up to the first that has none; a hole has the empty text. -/
def walkItems (r : Renderer) (ask : Value → m Kind) (seen : List ObjectId) (elements : List (Option Value)) :
    m (Rendering (List String)) := do
  match elements with
  | []                => return ⟨.ok [], []⟩
  | none :: rest      =>
    let tail ← r.walkItems ask seen rest
    return ⟨tail.outcome.map ("" :: ·), tail.entered⟩
  | some value :: rest =>
    let head ← r.walk ask seen value
    match head.outcome with
    | .error e => return ⟨.error e, head.entered⟩
    | .ok text =>
      let tail ← r.walkItems ask (seen ++ head.entered) rest
      return ⟨tail.outcome.map (text :: ·), head.entered ++ tail.entered⟩
termination_by r.heap.cost seen + elements.length + 1
decreasing_by
  · simp only [List.length_cons]; omega
  · omega
  · exact Nat.lt_of_le_of_lt
      (Nat.add_le_add_right (Nat.add_le_add_right (Heap.cost_append_le _ _ _) _) _)
      (by simp only [List.length_cons]; omega)

end

section

variable [LawfulMonad m] {r : Renderer} {ask : Value → m Kind} {seen : List ObjectId} {v : Value} {kind : Kind}
  {rest : List (Option Value)}

theorem walk_text {outcome : Except Failure String} {entered : List ObjectId} (hk : ask v = pure kind)
    (h : r.planOf kind seen v = .text outcome entered) : r.walk ask seen v = pure ⟨outcome, entered⟩ := by
  rw [walk, hk, pure_bind]
  split <;> rename_i h' <;> cases h.symm.trans h'
  rfl

theorem walk_array {id : ObjectId} {elements : List (Option Value)} (hk : ask v = pure kind)
    (h : r.planOf kind seen v = .array id elements) : r.walk ask seen v =
      (fun items => ⟨r.arrayOutcome id elements items.outcome, id :: items.entered⟩) <$>
        r.walkItems ask (seen ++ [id]) elements := by
  rw [walk, hk, pure_bind, map_eq_pure_bind]
  split <;> rename_i h' <;> cases h.symm.trans h'
  rfl

theorem walk_error {id : ObjectId} {sort : ErrorKind} {message : Value} (hk : ask v = pure kind)
    (h : r.planOf kind seen v = .error id sort message) : r.walk ask seen v =
      (fun inner => ⟨r.errorOutcome id sort inner.outcome, id :: inner.entered⟩) <$>
        r.walk ask (seen ++ [id]) message := by
  rw [walk, hk, pure_bind, map_eq_pure_bind]
  split <;> rename_i h' <;> cases h.symm.trans h'
  rfl

omit [LawfulMonad m] in
theorem walkItems_nil : r.walkItems ask seen [] = pure ⟨.ok [], []⟩ := by rw [walkItems]

theorem walkItems_hole {tail : Rendering (List String)} (h : r.walkItems ask seen rest = pure tail) :
    r.walkItems ask seen (none :: rest) = pure ⟨tail.outcome.map ("" :: ·), tail.entered⟩ := by
  rw [walkItems, h, pure_bind]

theorem walkItems_stop {head : Rendering String} {e : Failure} (h : r.walk ask seen v = pure head)
    (he : head.outcome = .error e) : r.walkItems ask seen (some v :: rest) = pure ⟨.error e, head.entered⟩ := by
  rw [walkItems, h, pure_bind, he]

theorem walkItems_item {head : Rendering String} {text : String} {tail : Rendering (List String)}
    (h : r.walk ask seen v = pure head) (ht : head.outcome = .ok text)
    (hr : r.walkItems ask (seen ++ head.entered) rest = pure tail) :
    r.walkItems ask seen (some v :: rest) =
      pure ⟨tail.outcome.map (text :: ·), head.entered ++ tail.entered⟩ := by
  rw [walkItems, h, pure_bind, ht]
  dsimp only
  rw [hr, pure_bind]

end

end

/-- **Induction over walks that come back**: whatever is asked, the kind of each value on the way was found, and the plan is
for it. -/
theorem walk_induction (r : Renderer) (ask : Value → Option Kind) {P : List ObjectId → Value → Rendering String → Prop}
    {Q : List ObjectId → List (Option Value) → Rendering (List String) → Prop}
    (text : ∀ {seen v kind outcome entered}, ask v = some kind →
      r.planOf kind seen v = .text outcome entered → P seen v ⟨outcome, entered⟩)
    (array : ∀ {seen v kind id elements items}, ask v = some kind → r.planOf kind seen v = .array id elements →
      Q (seen ++ [id]) elements items → P seen v ⟨r.arrayOutcome id elements items.outcome, id :: items.entered⟩)
    (error : ∀ {seen v kind id sort message inner}, ask v = some kind →
      r.planOf kind seen v = .error id sort message → P (seen ++ [id]) message inner →
      P seen v ⟨r.errorOutcome id sort inner.outcome, id :: inner.entered⟩)
    (nil : ∀ {seen}, Q seen [] ⟨.ok [], []⟩)
    (hole : ∀ {seen rest tail}, Q seen rest tail → Q seen (none :: rest) ⟨tail.outcome.map ("" :: ·), tail.entered⟩)
    (stop : ∀ {seen v rest head e}, P seen v head → head.outcome = .error e →
      Q seen (some v :: rest) ⟨.error e, head.entered⟩)
    (item : ∀ {seen v rest head text tail}, P seen v head → head.outcome = .ok text → Q (seen ++ head.entered) rest tail →
      Q seen (some v :: rest) ⟨tail.outcome.map (text :: ·), head.entered ++ tail.entered⟩) :
    (∀ seen v x, r.walk ask seen v = some x → P seen v x) ∧
      ∀ seen elements x, r.walkItems ask seen elements = some x → Q seen elements x := by
  refine walk.mutual_induct r (fun seen v => ∀ x, r.walk ask seen v = some x → P seen v x)
    (fun seen elements => ∀ x, r.walkItems ask seen elements = some x → Q seen elements x) ?value ?nil ?hole ?item
  case value =>
    intro seen v hitems hmessage x hx
    cases hk : ask v with
    | none =>
      rw [walk, hk] at hx
      cases hx
    | some kind =>
      cases hp : r.planOf kind seen v with
      | text outcome entered =>
        rw [walk_text hk hp] at hx
        cases hx
        exact text hk hp
      | array id elements =>
        rw [walk_array hk hp] at hx
        obtain ⟨items, hi, rfl⟩ := Option.map_eq_some_iff.1 hx
        exact array hk hp (hitems kind id elements hp items hi)
      | error id sort message =>
        rw [walk_error hk hp] at hx
        obtain ⟨inner, hi, rfl⟩ := Option.map_eq_some_iff.1 hx
        exact error hk hp (hmessage kind id sort message hp inner hi)
  case nil =>
    intro seen x hx
    rw [walkItems] at hx
    cases hx
    exact nil
  case hole =>
    intro seen rest ht x hx
    rw [walkItems] at hx
    obtain ⟨tail, hi, hx⟩ := Option.bind_eq_some_iff.1 hx
    cases hx
    exact hole (ht tail hi)
  case item =>
    intro seen v rest hv hr x hx
    rw [walkItems] at hx
    obtain ⟨head, hh, hx⟩ := Option.bind_eq_some_iff.1 hx
    cases ho : head.outcome with
    | error e =>
      rw [ho] at hx
      cases hx
      exact stop (hv head hh) ho
    | ok text =>
      rw [ho] at hx
      obtain ⟨tail, hi, hx⟩ := Option.bind_eq_some_iff.1 hx
      cases hx
      exact item (hv head hh) ho (hr head tail hi)

/-! ## The walk that comes back

As long as every search for a kind comes back, so does the walk. -/

/-- The text of a value, when these objects were entered before, if the walk comes back. -/
def render? (r : Renderer) (seen : List ObjectId) (value : Value) : Option (Rendering String) :=
  r.walk r.heap.kindOf? seen value

def renderItems? (r : Renderer) (seen : List ObjectId) (elements : List (Option Value)) :
    Option (Rendering (List String)) :=
  r.walkItems r.heap.kindOf? seen elements

/-- The same walk, which takes a kind for granted where the search for it does not come back. -/
def render (r : Renderer) (seen : List ObjectId) (value : Value) : Rendering String :=
  Id.run (r.walk (fun v => pure (r.heap.kindOf v)) seen value)

def renderItems (r : Renderer) (seen : List ObjectId) (elements : List (Option Value)) : Rendering (List String) :=
  Id.run (r.walkItems (fun v => pure (r.heap.kindOf v)) seen elements)

section

variable {r : Renderer} {seen : List ObjectId} {v : Value} {rest : List (Option Value)}

theorem render_text {outcome : Except Failure String} {entered : List ObjectId}
    (h : r.plan seen v = .text outcome entered) : r.render seen v = ⟨outcome, entered⟩ :=
  walk_text rfl h

theorem render_array {id : ObjectId} {elements : List (Option Value)} (h : r.plan seen v = .array id elements) :
    r.render seen v = ⟨r.arrayOutcome id elements (r.renderItems (seen ++ [id]) elements).outcome,
      id :: (r.renderItems (seen ++ [id]) elements).entered⟩ :=
  walk_array rfl h

theorem render_error {id : ObjectId} {sort : ErrorKind} {message : Value} (h : r.plan seen v = .error id sort message) :
    r.render seen v = ⟨r.errorOutcome id sort (r.render (seen ++ [id]) message).outcome,
      id :: (r.render (seen ++ [id]) message).entered⟩ :=
  walk_error rfl h

theorem renderItems_nil : r.renderItems seen [] = ⟨.ok [], []⟩ := walkItems_nil

theorem renderItems_hole : r.renderItems seen (none :: rest) =
    ⟨(r.renderItems seen rest).outcome.map ("" :: ·), (r.renderItems seen rest).entered⟩ :=
  walkItems_hole rfl

theorem renderItems_stop {e : Failure} (h : (r.render seen v).outcome = .error e) :
    r.renderItems seen (some v :: rest) = ⟨.error e, (r.render seen v).entered⟩ :=
  walkItems_stop rfl h

theorem renderItems_item {text : String} (h : (r.render seen v).outcome = .ok text) :
    r.renderItems seen (some v :: rest) =
      ⟨(r.renderItems (seen ++ (r.render seen v).entered) rest).outcome.map (text :: ·),
        (r.render seen v).entered ++ (r.renderItems (seen ++ (r.render seen v).entered) rest).entered⟩ :=
  walkItems_item rfl h rfl

end

/-- **Induction over walks**: for a value by what has to be written before it, for elements one after the other up to the
first that has no text. -/
theorem plan_induction (r : Renderer) {P : List ObjectId → Value → Prop} {Q : List ObjectId → List (Option Value) → Prop}
    (text : ∀ {seen v outcome entered}, r.plan seen v = .text outcome entered → P seen v)
    (array : ∀ {seen v id elements}, r.plan seen v = .array id elements → Q (seen ++ [id]) elements → P seen v)
    (error : ∀ {seen v id sort message}, r.plan seen v = .error id sort message → P (seen ++ [id]) message → P seen v)
    (nil : ∀ {seen}, Q seen [])
    (hole : ∀ {seen rest}, Q seen rest → Q seen (none :: rest))
    (stop : ∀ {seen v rest e}, P seen v → (r.render seen v).outcome = .error e → Q seen (some v :: rest))
    (item : ∀ {seen v rest text}, P seen v → (r.render seen v).outcome = .ok text →
      Q (seen ++ (r.render seen v).entered) rest → Q seen (some v :: rest)) :
    (∀ seen v, P seen v) ∧ ∀ seen elements, Q seen elements := by
  refine walk.mutual_induct r P Q ?value (fun _ => nil) (fun _ _ => hole) ?item
  case value =>
    intro seen v hitems hmessage
    cases hp : r.plan seen v with
    | text outcome entered => exact text hp
    | array id elements => exact array hp (hitems _ id elements hp)
    | error id sort message => exact error hp (hmessage _ id sort message hp)
  case item =>
    intro seen v rest hv hr
    cases ho : (r.render seen v).outcome with
    | error e => exact stop hv ho
    | ok text => exact item hv ho (hr _)

/-- The same for what the walks come to. -/
theorem render_induction (r : Renderer) {P : List ObjectId → Value → Rendering String → Prop}
    {Q : List ObjectId → List (Option Value) → Rendering (List String) → Prop}
    (text : ∀ {seen v outcome entered}, r.plan seen v = .text outcome entered → P seen v ⟨outcome, entered⟩)
    (array : ∀ {seen v id elements items}, r.plan seen v = .array id elements → Q (seen ++ [id]) elements items →
      P seen v ⟨r.arrayOutcome id elements items.outcome, id :: items.entered⟩)
    (error : ∀ {seen v id sort message inner}, r.plan seen v = .error id sort message → P (seen ++ [id]) message inner →
      P seen v ⟨r.errorOutcome id sort inner.outcome, id :: inner.entered⟩)
    (nil : ∀ {seen}, Q seen [] ⟨.ok [], []⟩)
    (hole : ∀ {seen rest tail}, Q seen rest tail → Q seen (none :: rest) ⟨tail.outcome.map ("" :: ·), tail.entered⟩)
    (stop : ∀ {seen v rest head e}, P seen v head → head.outcome = .error e →
      Q seen (some v :: rest) ⟨.error e, head.entered⟩)
    (item : ∀ {seen v rest head text tail}, P seen v head → head.outcome = .ok text → Q (seen ++ head.entered) rest tail →
      Q seen (some v :: rest) ⟨tail.outcome.map (text :: ·), head.entered ++ tail.entered⟩) :
    (∀ seen v, P seen v (r.render seen v)) ∧ ∀ seen elements, Q seen elements (r.renderItems seen elements) :=
  r.plan_induction (P := fun seen v => P seen v (r.render seen v))
    (Q := fun seen elements => Q seen elements (r.renderItems seen elements))
    (fun hp => render_text hp ▸ text hp) (fun hp hi => render_array hp ▸ array hp hi)
    (fun hp hi => render_error hp ▸ error hp hi) (renderItems_nil ▸ nil) (fun ht => renderItems_hole ▸ hole ht)
    (fun hv ho => renderItems_stop ho ▸ stop hv ho) (fun hv ho hr => renderItems_item ho ▸ item hv ho hr)

/-- A value that would have to be named and is not has what is wrong as its text. -/
def safely : Except Failure String → Except Failure String
  | .error (.noSelector kind) => .ok (Failure.noSelector kind).display
  | other                     => other

/-- The text of a value on a walk of its own, if that comes back. -/
def source? (r : Renderer) (value : Value) : Option (Except Failure String) := (r.render? [] value).map (·.outcome)

def sourceSafe? (r : Renderer) (value : Value) : Option (Except Failure String) := (r.source? value).map safely

/-- The text of a value on a walk of its own. -/
def source (r : Renderer) (value : Value) : Except Failure String := (r.render [] value).outcome

def sourceSafe (r : Renderer) (value : Value) : Except Failure String := safely (r.source value)

end Renderer

end Readback
