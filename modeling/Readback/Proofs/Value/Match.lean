import Readback.Value.Render
/-!
# Values that match

What a value is read back as need not be the value: an array that was written out comes back as another array.  `Matches`
says when such a value, in the heap as it is then, has the structure that the first one had in its heap, or is the value
itself, which it may be if that has a name.  `Recalled` says it place by place of the text: where the selector of a value is
written, that very value has to come back, and nowhere else may one come back for its name.
-/
namespace Readback

/-- The kinds that an object has by itself, whatever else is in the heap. -/
def Kind.isOwn : Kind → Bool
  | .function | .regexp | .date | .array | .error (some _) => true
  | _ => false

namespace Heap

variable {h h' h'' : Heap} {v : Value} {kind : Kind} {o : Object} {id : ObjectId}

/-! ## Heaps that grow -/

/-- The later heap has all objects of the earlier one, unchanged. -/
def Grows (h h' : Heap) : Prop := ∀ id o, h.object? id = some o → h'.object? id = some o

theorem Grows.refl (h : Heap) : h.Grows h := fun _ _ => id

theorem Grows.trans (hg : h.Grows h') (hg' : h'.Grows h'') : h.Grows h'' := fun id o ho => hg' id o (hg id o ho)

theorem grows_newObject (h : Heap) (o : Object) : h.Grows (h.newObject o).2 := by
  intro id o' ho
  obtain ⟨hlt, rfl⟩ := Array.getElem?_eq_some_iff.1 ho
  exact Array.getElem?_push_lt hlt

theorem object?_newObject (h : Heap) (o : Object) : (h.newObject o).2.object? ⟨h.objects.size⟩ = some o :=
  Array.getElem?_push_size

theorem grows_newSymbol (h : Heap) (description : Option String) : h.Grows (h.newSymbol description).2 := fun _ _ => id

/-! ## What a value shows as -/

/-- The value is an object, and of a kind. -/
structure Shows (h : Heap) (v : Value) (kind : Kind) (o : Object) : Prop where
  found : ∃ id, v = .object id ∧ h.object? id = some o
  kind  : h.objectKind o = kind

theorem Shows.of_kindOf (ho : h.object? id = some o) (hk : h.kindOf (.object id) = kind) : h.Shows (.object id) kind o :=
  ⟨⟨id, rfl, ho⟩, (kindOf_object ho).symm.trans hk⟩

theorem Shows.kindOf (hs : h.Shows v kind o) : h.kindOf v = kind := by
  obtain ⟨⟨id, rfl, ho⟩, hk⟩ := hs
  exact (kindOf_object ho).trans hk

/-- Whoever has the prototype of a sort of errors inherits from that of all errors. -/
theorem inherits_error {sort : ErrorKind} (hp : o.errorSort = some sort) : h.inherits o (.error .error) = true := by
  unfold Object.errorSort at hp
  split at hp
  · rename_i hproto
    rw [inherits, inherits?, hproto, chainReaches?.eq_def]
    simp
  · cases hp

/-- A kind of its own says nothing of the heap. -/
theorem objectKind_of_isOwn (hk : h.objectKind o = kind) (ho : kind.isOwn = true) : h'.objectKind o = kind := by
  rw [objectKind_eq] at hk ⊢
  cases hown : o.ownKind? with
  | some k => rwa [hown] at hk
  | none =>
    rw [hown] at hk
    dsimp only at hk ⊢
    split at hk
    · -- an error, and its sort is written on it
      subst hk
      cases hs : o.errorSort with
      | none =>
        rw [hs] at ho
        cases ho
      | some sort => rw [if_pos (.inr (inherits_error hs))]
    · subst hk
      cases ho

theorem Shows.grows (hs : h.Shows v kind o) (hg : h.Grows h') (ho : kind.isOwn = true) : h'.Shows v kind o := by
  obtain ⟨⟨id, rfl, hid⟩, hk⟩ := hs
  exact ⟨⟨id, rfl, hg id o hid⟩, objectKind_of_isOwn hk ho⟩

end Heap

/-! ## Matching -/

open Renderer (messageOf)

/-- The pattern as it is written: an empty one would make a comment of the slashes. -/
def writtenPattern (pattern : String) : String := if pattern = "" then "(?:)" else pattern

theorem regexpText_eq (pattern flags : String) :
    Renderer.regexpText pattern flags = "/" ++ writtenPattern pattern ++ "/" ++ flags := rfl

variable {named named' : Value → Prop} {h h' h'' : Heap} {v v' : Value} {xs ys : List (Option Value)}

mutual

/-- **A value of a heap matches one of another heap**: they are the same primitive, or the same value with a name; or both
are of one kind and have matching contents. -/
inductive Matches (named : Value → Prop) (h h' : Heap) : Value → Value → Prop where
  | primitive {v : Value} (hv : v.hasIdentity = false) : Matches named h h' v v
  | named {v : Value} (hv : named v) : Matches named h h' v v
  | array {v v' : Value} {o o' : Object} {xs ys : List (Option Value)} (hs : h.Shows v .array o)
      (hc : o.content = .array xs) (hs' : h'.Shows v' .array o') (hc' : o'.content = .array ys)
      (hi : MatchesItems named h h' xs ys) : Matches named h h' v v'
  | regexp {v v' : Value} {o o' : Object} {p p' flags : String} (hs : h.Shows v .regexp o)
      (hc : o.content = .regexp p flags) (hs' : h'.Shows v' .regexp o') (hc' : o'.content = .regexp p' flags)
      (hp : writtenPattern p = writtenPattern p') : Matches named h h' v v'
  | date {v v' : Value} {o o' : Object} {time time' : Number} (hs : h.Shows v .date o) (hc : o.content = .date time)
      (hs' : h'.Shows v' .date o') (hc' : o'.content = .date time') (ht : Date.text? time = Date.text? time') :
      Matches named h h' v v'
  | function {v v' : Value} {o o' : Object} {source : String} (hs : h.Shows v .function o)
      (hc : o.content = .function source) (hs' : h'.Shows v' .function o') (hc' : o'.content = .function source) :
      Matches named h h' v v'
  /-- An error without a message has the empty text. -/
  | error {v v' : Value} {o o' : Object} {sort : ErrorKind} {message : String} (hs : h.Shows v (.error (some sort)) o)
      (hm : messageOf o = .text message) (hs' : h'.Shows v' (.error (some sort)) o') (hm' : messageOf o' = .text message) :
      Matches named h h' v v'

/-- As many elements, with holes at the same places. -/
inductive MatchesItems (named : Value → Prop) (h h' : Heap) : List (Option Value) → List (Option Value) → Prop where
  | nil : MatchesItems named h h' [] []
  | hole {xs ys : List (Option Value)} (hr : MatchesItems named h h' xs ys) :
      MatchesItems named h h' (none :: xs) (none :: ys)
  | item {v v' : Value} {xs ys : List (Option Value)} (hv : Matches named h h' v v')
      (hr : MatchesItems named h h' xs ys) : MatchesItems named h h' (some v :: xs) (some v' :: ys)

end

mutual

/-- **Matching values stay so when the later heap grows.** -/
theorem Matches.grows (hg : h'.Grows h'') : ∀ {v v' : Value}, Matches named h h' v v' → Matches named h h'' v v'
  | _, _, .primitive hv => .primitive hv
  | _, _, .named hv => .named hv
  | _, _, .array hs hc hs' hc' hi => .array hs hc (hs'.grows hg rfl) hc' (hi.grows hg)
  | _, _, .regexp hs hc hs' hc' hp => .regexp hs hc (hs'.grows hg rfl) hc' hp
  | _, _, .date hs hc hs' hc' ht => .date hs hc (hs'.grows hg rfl) hc' ht
  | _, _, .function hs hc hs' hc' => .function hs hc (hs'.grows hg rfl) hc'
  | _, _, .error hs hm hs' hm' => .error hs hm (hs'.grows hg rfl) hm'

theorem MatchesItems.grows (hg : h'.Grows h'') : ∀ {xs ys : List (Option Value)},
    MatchesItems named h h' xs ys → MatchesItems named h h'' xs ys
  | _, _, .nil => .nil
  | _, _, .hole hr => .hole (hr.grows hg)
  | _, _, .item hv hr => .item (hv.grows hg) (hr.grows hg)

end

mutual

/-- More names make more values match. -/
theorem Matches.imp (hn : ∀ v, named v → named' v) : ∀ {v v' : Value}, Matches named h h' v v' → Matches named' h h' v v'
  | _, _, .primitive hv => .primitive hv
  | _, _, .named hv => .named (hn _ hv)
  | _, _, .array hs hc hs' hc' hi => .array hs hc hs' hc' (hi.imp hn)
  | _, _, .regexp hs hc hs' hc' hp => .regexp hs hc hs' hc' hp
  | _, _, .date hs hc hs' hc' ht => .date hs hc hs' hc' ht
  | _, _, .function hs hc hs' hc' => .function hs hc hs' hc'
  | _, _, .error hs hm hs' hm' => .error hs hm hs' hm'

theorem MatchesItems.imp (hn : ∀ v, named v → named' v) : ∀ {xs ys : List (Option Value)},
    MatchesItems named h h' xs ys → MatchesItems named' h h' xs ys
  | _, _, .nil => .nil
  | _, _, .hole hr => .hole (hr.imp hn)
  | _, _, .item hv hr => .item (hv.imp hn) (hr.imp hn)

end

/-! ## Matching place by place -/

/-- What is written of the value, when these objects were entered before, is its selector. -/
def Renderer.Selects (r : Renderer) (seen : List ObjectId) (v : Value) : Prop :=
  ∃ path, r.resolver v = some path ∧ (r.render seen v).outcome = .ok path

mutual

/-- **A value is recalled from where it is written**, when these objects were entered before: as the value itself where its
selector is written.  Elsewhere an array is recalled as an array, each element from its own place; and what is no array, as
something that matches it without any names. -/
inductive Recalled (r : Renderer) (h' : Heap) : List ObjectId → Value → Value → Prop where
  | selected {seen : List ObjectId} {v : Value} (hs : r.Selects seen v) : Recalled r h' seen v v
  | plain {seen : List ObjectId} {v v' : Value} (hn : ¬ r.Selects seen v) (hk : r.heap.kindOf v ≠ .array)
      (hm : Matches (fun _ => False) r.heap h' v v') : Recalled r h' seen v v'
  | array {seen : List ObjectId} {id : ObjectId} {v' : Value} {o o' : Object} {xs ys : List (Option Value)}
      (hn : ¬ r.Selects seen (.object id)) (hs : r.heap.Shows (.object id) .array o) (hc : o.content = .array xs)
      (hs' : h'.Shows v' .array o') (hc' : o'.content = .array ys) (hi : RecalledItems r h' (seen ++ [id]) xs ys) :
      Recalled r h' seen (.object id) v'

/-- The same for elements, of which each is written when those before it have been. -/
inductive RecalledItems (r : Renderer) (h' : Heap) :
    List ObjectId → List (Option Value) → List (Option Value) → Prop where
  | nil {seen : List ObjectId} : RecalledItems r h' seen [] []
  | hole {seen : List ObjectId} {xs ys : List (Option Value)} (hr : RecalledItems r h' seen xs ys) :
      RecalledItems r h' seen (none :: xs) (none :: ys)
  | item {seen : List ObjectId} {v v' : Value} {xs ys : List (Option Value)} (hv : Recalled r h' seen v v')
      (hr : RecalledItems r h' (seen ++ (r.render seen v).entered) xs ys) :
      RecalledItems r h' seen (some v :: xs) (some v' :: ys)

end

variable {r : Renderer} {seen : List ObjectId}

/-- Where the selector of a value is written, nothing but the value is recalled. -/
theorem Recalled.eq_of_selects (hr : Recalled r h' seen v v') (hs : r.Selects seen v) : v' = v := by
  cases hr with
  | selected => rfl
  | plain hn | array hn => exact absurd hs hn

mutual

theorem Recalled.grows (hg : h'.Grows h'') : ∀ {seen : List ObjectId} {v v' : Value},
    Recalled r h' seen v v' → Recalled r h'' seen v v'
  | _, _, _, .selected hs => .selected hs
  | _, _, _, .plain hn hk hm => .plain hn hk (hm.grows hg)
  | _, _, _, .array hn hs hc hs' hc' hi => .array hn hs hc (hs'.grows hg rfl) hc' (hi.grows hg)

theorem RecalledItems.grows (hg : h'.Grows h'') : ∀ {seen : List ObjectId} {xs ys : List (Option Value)},
    RecalledItems r h' seen xs ys → RecalledItems r h'' seen xs ys
  | _, _, _, .nil => .nil
  | _, _, _, .hole hr => .hole (hr.grows hg)
  | _, _, _, .item hv hr => .item (hv.grows hg) (hr.grows hg)

end

mutual

/-- **What is recalled matches**, when all that has a selector counts as named. -/
theorem Recalled.matches (hn : ∀ v path, r.resolver v = some path → named v) : ∀ {seen : List ObjectId} {v v' : Value},
    Recalled r h' seen v v' → Matches named r.heap h' v v'
  | _, _, _, .selected ⟨path, hp, _⟩ => .named (hn _ path hp)
  | _, _, _, .plain _ _ hm => hm.imp nofun
  | _, _, _, .array _ hs hc hs' hc' hi => .array hs hc hs' hc' (hi.matches hn)

theorem RecalledItems.matches (hn : ∀ v path, r.resolver v = some path → named v) :
    ∀ {seen : List ObjectId} {xs ys : List (Option Value)}, RecalledItems r h' seen xs ys → MatchesItems named r.heap h' xs ys
  | _, _, _, .nil => .nil
  | _, _, _, .hole hr => .hole (hr.matches hn)
  | _, _, _, .item hv hr => .item (hv.matches hn) (hr.matches hn)

end

end Readback
