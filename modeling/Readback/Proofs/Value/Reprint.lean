import Readback.Proofs.Value.Makes
/-!
# Texts that are written as themselves

What was read without names is a tree: no object is in it twice.  So a walk through it never comes upon an object that it
entered before, and a value that matches one that was written has the same text (`render_of_matches`).  The text that a
source comes to is therefore a fixed point (`source_stable`).
-/
namespace Readback

open Evaluator

/-! ## Trees in the heap -/

mutual

/-- The value is a tree in the heap, and its objects have numbers from `lo` on and below `hi`. -/
inductive Tree (h : Heap) : Nat → Value → Nat → Prop where
  | leaf {lo hi : Nat} {v : Value} (hv : ∀ id, v ≠ .object id) (hle : lo ≤ hi) : Tree h lo v hi
  | object {lo hi : Nat} {id : ObjectId} {o : Object} (ho : h.object? id = some o) (hc : ∀ xs, o.content ≠ .array xs)
      (hlo : lo ≤ id.index) (hhi : id.index < hi) : Tree h lo (.object id) hi
  | array {lo mid hi : Nat} {id : ObjectId} {o : Object} {xs : List (Option Value)} (ho : h.object? id = some o)
      (hc : o.content = .array xs) (ht : Trees h lo xs mid) (hm : mid ≤ id.index) (hhi : id.index < hi) :
      Tree h lo (.object id) hi

/-- The same for elements, whose objects have numbers one after the other. -/
inductive Trees (h : Heap) : Nat → List (Option Value) → Nat → Prop where
  | nil {lo hi : Nat} (hle : lo ≤ hi) : Trees h lo [] hi
  | hole {lo hi : Nat} {xs : List (Option Value)} (hr : Trees h lo xs hi) : Trees h lo (none :: xs) hi
  | item {lo mid hi : Nat} {v : Value} {xs : List (Option Value)} (hv : Tree h lo v mid) (hr : Trees h mid xs hi) :
      Trees h lo (some v :: xs) hi

end

variable {h h' : Heap} {lo mid hi : Nat} {v v' : Value} {xs ys : List (Option Value)}

mutual

theorem Tree.le : ∀ {lo : Nat} {v : Value} {hi : Nat}, Tree h lo v hi → lo ≤ hi
  | _, _, _, .leaf _ hle => hle
  | _, _, _, .object _ _ hlo hhi => by omega
  | _, _, _, .array _ _ ht hm hhi => by
    have := ht.le
    omega

theorem Trees.le : ∀ {lo : Nat} {xs : List (Option Value)} {hi : Nat}, Trees h lo xs hi → lo ≤ hi
  | _, _, _, .nil hle => hle
  | _, _, _, .hole hr => hr.le
  | _, _, _, .item hv hr => hv.le.trans hr.le

end

mutual

/-- A tree stays one when the heap grows. -/
theorem Tree.grows (hg : h.Grows h') : ∀ {lo : Nat} {v : Value} {hi : Nat}, Tree h lo v hi → Tree h' lo v hi
  | _, _, _, .leaf hv hle => .leaf hv hle
  | _, _, _, .object ho hc hlo hhi => .object (hg _ _ ho) hc hlo hhi
  | _, _, _, .array ho hc ht hm hhi => .array (hg _ _ ho) hc (ht.grows hg) hm hhi

theorem Trees.grows (hg : h.Grows h') : ∀ {lo : Nat} {xs : List (Option Value)} {hi : Nat},
    Trees h lo xs hi → Trees h' lo xs hi
  | _, _, _, .nil hle => .nil hle
  | _, _, _, .hole hr => .hole (hr.grows hg)
  | _, _, _, .item hv hr => .item (hv.grows hg) (hr.grows hg)

end

mutual

/-- There may be numbers left over in front. -/
theorem Tree.widen : ∀ {lo lo' : Nat} {v : Value} {hi : Nat}, Tree h lo v hi → lo' ≤ lo → Tree h lo' v hi
  | _, _, _, _, .leaf hv hle, hl => .leaf hv (hl.trans hle)
  | _, _, _, _, .object ho hc hlo hhi, hl => .object ho hc (hl.trans hlo) hhi
  | _, _, _, _, .array ho hc ht hm hhi, hl => .array ho hc (ht.widen hl) hm hhi

theorem Trees.widen : ∀ {lo lo' : Nat} {xs : List (Option Value)} {hi : Nat}, Trees h lo xs hi → lo' ≤ lo → Trees h lo' xs hi
  | _, _, _, _, .nil hle, hl => .nil (hl.trans hle)
  | _, _, _, _, .hole hr, hl => .hole (hr.widen hl)
  | _, _, _, _, .item hv hr, hl => .item (hv.widen hl) hr

end

/-- An array that is a tree has trees in front of it. -/
theorem Tree.trees {id : ObjectId} {o : Object} (ht : Tree h lo (.object id) hi) (ho : h.object? id = some o)
    (hc : o.content = .array xs) : ∃ mid, Trees h lo xs mid ∧ mid ≤ id.index ∧ id.index < hi := by
  cases ht with
  | leaf hv => exact absurd rfl (hv id)
  | object ho' hc' => exact absurd (Option.some.inj (ho.symm.trans ho') ▸ hc) (hc' xs)
  | array ho' hc' ht hm hhi =>
    cases ho.symm.trans ho'
    cases hc.symm.trans hc'
    exact ⟨_, ht, hm, hhi⟩

theorem Tree.bounds {id : ObjectId} (ht : Tree h lo (.object id) hi) : lo ≤ id.index ∧ id.index < hi := by
  cases ht with
  | leaf hv => exact absurd rfl (hv id)
  | object _ _ hlo hhi => exact ⟨hlo, hhi⟩
  | array _ _ ht hm hhi => exact ⟨ht.le.trans hm, hhi⟩

theorem Heap.Grows.size_le (hg : h.Grows h') : h.objects.size ≤ h'.objects.size := by
  by_contra hlt
  have hlt : h'.objects.size < h.objects.size := Nat.lt_of_not_le hlt
  obtain ⟨o, ho⟩ : ∃ o, h.object? ⟨h'.objects.size⟩ = some o := ⟨_, Array.getElem?_eq_getElem hlt⟩
  exact Nat.lt_irrefl _ (Array.getElem?_eq_some_iff.1 (hg _ _ ho)).1

theorem size_newObject (h : Heap) (o : Object) : (h.newObject o).2.objects.size = h.objects.size + 1 :=
  Array.size_push o

mutual

/-- **Without names, what is made is a tree** of new objects. -/
theorem Makes.tree : ∀ {h : Heap} {v : Value} {h' : Heap}, Makes {} h v h' → Tree h' h.objects.size v h'.objects.size
  | _, _, _, .primitive hv => .leaf (by rintro _ rfl; cases hv) (Nat.le_refl _)
  | _, _, _, .named hp => nomatch hp
  | _, _, _, .symbol => .leaf nofun (Nat.le_refl _)
  | _, _, _, .object _ hc =>
    .object (Heap.object?_newObject _ _) hc (Nat.le_refl _) (by rw [size_newObject]; exact Nat.lt_succ_self _)
  | _, _, _, .array hi =>
    .array (Heap.object?_newObject _ _) rfl (hi.trees.grows (Heap.grows_newObject _ _)) (Nat.le_refl _)
      (by rw [size_newObject]; exact Nat.lt_succ_self _)
  | _, _, _, .after hi hv => hv.tree.widen hi.grows.size_le

theorem MakesItems.trees : ∀ {h : Heap} {xs : List (Option Value)} {h' : Heap},
    MakesItems {} h xs h' → Trees h' h.objects.size xs h'.objects.size
  | _, _, _, .nil => .nil (Nat.le_refl _)
  | _, _, _, .hole hr => .hole hr.trees
  | _, _, _, .item hv hr => .item (hv.tree.grows hr.grows) hr.trees

end

/-! ## Texts of values that match -/

namespace Renderer

variable {r : Renderer} {seen : List ObjectId} {id : ObjectId} {o : Object} {max : Nat} {text : String}

theorem render_primitive (hv : v.hasIdentity = false) :
    ∃ text, ∀ (r : Renderer) (seen : List ObjectId), r.render seen v = ⟨.ok text, []⟩ := by
  cases v with
  | symbol | object => cases hv
  | _ => exact ⟨_, fun _ _ => render_text rfl⟩

/-- Without selectors nothing is written as one. -/
theorem selector_noSelectors {kind : Kind} : (mk h noSelectors max).selector kind v ≠ .ok text := by
  unfold selector
  split <;> exact nofun

theorem render_function {source : String} (ho : r.heap.object? id = some o) (hc : o.content = .function source) :
    r.render seen (.object id) = ⟨.ok source, []⟩ := by
  refine render_text ?_
  unfold plan planOf
  simp only [ho, hc]

/-- An object that is written was not entered before. -/
theorem unseen_of_ok (ho : r.heap.object? id = some o) (hf : ∀ source, o.content ≠ .function source)
    (ht : (r.render seen (.object id)).outcome = .ok text) : id ∉ seen ∧ r.plan seen (.object id) = r.objectPlan id o := by
  by_cases hs : id ∈ seen
  · rw [render_text ((plan_unseen ho hf).trans (if_pos hs))] at ht
    cases ht
  · exact ⟨hs, (plan_unseen ho hf).trans (if_neg hs)⟩

/-- The walk through an object that is written enters that object alone, and comes to a text. -/
def Writes (r : Renderer) (id : ObjectId) (o : Object) (text : String) : Prop :=
  ∀ seen, r.plan seen (.object id) = r.objectPlan id o → r.render seen (.object id) = ⟨.ok text, [id]⟩

theorem writes_regexp {pattern flags : String} (hs : r.heap.Shows (.object id) .regexp o)
    (hc : o.content = .regexp pattern flags) : r.Writes id o (regexpText pattern flags) := by
  intro seen hp
  refine render_text (hp.trans ?_)
  unfold objectPlan objectPlanOf
  rw [hs.kindOf, hc]

theorem writes_date {time : Number} (hs : r.heap.Shows (.object id) .date o) (hc : o.content = .date time) :
    r.Writes id o (dateText time) := by
  intro seen hp
  refine render_text (hp.trans ?_)
  unfold objectPlan objectPlanOf
  rw [hs.kindOf, hc]

theorem writes_error {sort : ErrorKind} {message : String} (hs : r.heap.Shows (.object id) (.error (some sort)) o)
    (hm : messageOf o = .text message) : r.Writes id o (sort.name ++ "(" ++ Text.quote message ++ ")") := by
  intro seen hp
  have hplan : r.objectPlan id o = .error id sort (.text message) := by
    unfold objectPlan objectPlanOf
    rw [hs.kindOf]
    simp only [hm]
    rfl
  have hmessage : r.plan (seen ++ [id]) (.text message) = .text (.ok (Text.quote message)) [] := rfl
  rw [render_error (hp.trans hplan), render_text hmessage]
  rfl

theorem objectPlan_of_array (hs : r.heap.Shows (.object id) .array o) (hc : o.content = .array xs) :
    r.objectPlan id o =
      if r.maxArrayLength < xs.length then .text (r.selector .array (.object id)) [id] else .array id xs := by
  unfold objectPlan objectPlanOf
  rw [hs.kindOf, hc]

theorem not_function_of_error {sort : ErrorKind} (hs : h.Shows (.object id) (.error (some sort)) o) (source : String) :
    o.content ≠ .function source := by
  intro hc
  have hk := hs.kind
  simp [Heap.objectKind_eq, Object.ownKind?, hc] at hk

theorem not_function_of_array (hc : o.content = .array xs) (source : String) : o.content ≠ .function source := by
  rw [hc]
  exact nofun

/-- Without selectors, an array that is written is short enough, and is written with the texts of its elements. -/
theorem items_of_array {seen : List ObjectId} (hs : h.Shows (.object id) .array o) (ho : h.object? id = some o)
    (hc : o.content = .array xs) (ht : ((mk h noSelectors max).render seen (.object id)).outcome = .ok text) :
    xs.length ≤ max ∧
      ∃ texts, ((mk h noSelectors max).renderItems (seen ++ [id]) xs).outcome = .ok texts ∧ text = arrayText xs texts := by
  obtain ⟨-, hp⟩ := unseen_of_ok (r := ⟨h, noSelectors, max⟩) ho (not_function_of_array hc) ht
  rw [objectPlan_of_array (r := ⟨h, noSelectors, max⟩) hs hc] at hp
  split at hp
  · rw [render_text hp] at ht
    dsimp only at ht
    exact absurd ht selector_noSelectors
  · rename_i hl
    refine ⟨Nat.le_of_not_lt hl, ?_⟩
    rw [render_array hp] at ht
    cases hx : ((mk h noSelectors max).renderItems (seen ++ [id]) xs).outcome with
    | ok texts =>
      rw [hx] at ht
      exact ⟨texts, rfl, (Except.ok.inj ht).symm⟩
    | error e =>
      rw [hx] at ht
      cases e with
      | recursion =>
        dsimp only [arrayOutcome] at ht
        exact absurd ht selector_noSelectors
      | _ => cases ht

/-- Elements that have texts have one for the first, and texts for the others. -/
theorem item_of_ok {texts : List String} (ht : (r.renderItems seen (some v :: xs)).outcome = .ok texts) :
    ∃ text others, (r.render seen v).outcome = .ok text ∧
      (r.renderItems (seen ++ (r.render seen v).entered) xs).outcome = .ok others ∧ text :: others = texts := by
  cases he : (r.render seen v).outcome with
  | error e =>
    rw [renderItems_stop he] at ht
    cases ht
  | ok text =>
    rw [renderItems_item he] at ht
    obtain ⟨others, ho, rfl⟩ := eq_ok_of_map ht
    exact ⟨text, others, rfl, ho, rfl⟩

theorem render_of_items (ho : r.heap.object? id = some o) (hs : r.heap.Shows (.object id) .array o)
    (hc : o.content = .array xs) (hl : xs.length ≤ r.maxArrayLength) (hp : id ∉ seen) :
    r.render seen (.object id) = ⟨r.arrayOutcome id xs (r.renderItems (seen ++ [id]) xs).outcome,
      id :: (r.renderItems (seen ++ [id]) xs).entered⟩ := by
  refine render_array ?_
  rw [plan_unseen ho (not_function_of_array hc), if_neg hp, objectPlan_of_array hs hc, if_neg (Nat.not_lt_of_le hl)]

end Renderer

open Renderer

theorem MatchesItems.length_eq {named : Value → Prop} : ∀ {xs ys : List (Option Value)}, MatchesItems named h h' xs ys →
    xs.length = ys.length
  | _, _, .nil => rfl
  | _, _, .hole hr | _, _, .item _ hr => congrArg (· + 1) hr.length_eq

theorem MatchesItems.getLast_iff {named : Value → Prop} {xs ys : List (Option Value)} (hm : MatchesItems named h h' xs ys) :
    xs.getLast? = some none ↔ ys.getLast? = some none := by
  induction xs generalizing ys with
  | nil =>
    cases hm
    exact .rfl
  | cons x xs ih =>
    -- the last of more than one is the last of those behind the first
    cases hm with
    | hole hr =>
      cases hr with
      | nil => exact .rfl
      | hole hr =>
        rw [List.getLast?_cons_cons, List.getLast?_cons_cons]
        exact ih (.hole hr)
      | item hv hr =>
        rw [List.getLast?_cons_cons, List.getLast?_cons_cons]
        exact ih (.item hv hr)
    | item _ hr =>
      cases hr with
      | nil => simp
      | hole hr =>
        rw [List.getLast?_cons_cons, List.getLast?_cons_cons]
        exact ih (.hole hr)
      | item hv hr =>
        rw [List.getLast?_cons_cons, List.getLast?_cons_cons]
        exact ih (.item hv hr)

section

variable {named : Value → Prop} {max : Nat}

/-- No object was entered whose number is from `lo` on and below `hi`. -/
def Clear (seen : List ObjectId) (lo hi : Nat) : Prop := ∀ id ∈ seen, id.index < lo ∨ hi ≤ id.index

section

variable {seen entered : List ObjectId} {id : ObjectId}

theorem Clear.not_mem (hc : Clear seen lo hi) (hlo : lo ≤ id.index) (hhi : id.index < hi) : id ∉ seen := by
  intro hm
  have := hc id hm
  omega

theorem Clear.front (hc : Clear seen lo hi) (hle : mid ≤ hi) : Clear seen lo mid := fun i hm => (hc i hm).imp id hle.trans

theorem Clear.behind (hc : Clear seen lo hi) (hle : lo ≤ mid) (he : ∀ i ∈ entered, i.index < mid) :
    Clear (seen ++ entered) mid hi := by
  intro i hm
  rcases List.mem_append.1 hm with hm | hm
  · exact (hc i hm).imp hle.trans_lt' id
  · exact .inl (he i hm)

/-- An object is entered behind what is in it. -/
theorem Clear.enter (hc : Clear seen lo hi) (hmid : mid ≤ id.index) (hhi : id.index < hi) : Clear (seen ++ [id]) lo mid := by
  intro i hm
  rcases List.mem_append.1 hm with hm | hm
  · have := hc i hm
    omega
  · obtain rfl := List.mem_singleton.1 hm
    exact .inr hmid

end

/-- The walk comes to the text, and enters no objects but those with numbers from `lo` on and below `hi`. -/
def Within {α : Type} (x : Rendering α) (text : α) (lo hi : Nat) : Prop :=
  x.outcome = .ok text ∧ ∀ id ∈ x.entered, lo ≤ id.index ∧ id.index < hi

/-- An object that is written in one heap is written the same in another, where its match was not entered. -/
theorem within_of_writes {id id' : ObjectId} {o o' : Object} {seen seen' : List ObjectId} {t text : String}
    (ho : h.object? id = some o) (hf : ∀ source, o.content ≠ .function source)
    (hw : (Renderer.mk h noSelectors max).Writes id o t) (ho' : h'.object? id' = some o')
    (hf' : ∀ source, o'.content ≠ .function source) (hw' : (Renderer.mk h' noSelectors max).Writes id' o' t)
    (ht : Tree h' lo (.object id') hi) (hc : Clear seen' lo hi)
    (hx : ((Renderer.mk h noSelectors max).render seen (.object id)).outcome = .ok text) :
    Within ((Renderer.mk h' noSelectors max).render seen' (.object id')) text lo hi := by
  obtain ⟨-, hp⟩ := unseen_of_ok (r := ⟨h, noSelectors, max⟩) ho hf hx
  rw [hw seen hp] at hx
  cases hx
  have hs' : id' ∉ seen' := hc.not_mem ht.bounds.1 ht.bounds.2
  rw [Within, hw' seen' ((plan_unseen (r := ⟨h', noSelectors, max⟩) ho' hf').trans (if_neg hs'))]
  exact ⟨rfl, fun i hi => List.mem_singleton.1 hi ▸ ht.bounds⟩

/-- An array that was not entered comes to the texts of its elements, which come to theirs within the part in front of it. -/
theorem within_array {id : ObjectId} {o : Object} {seen : List ObjectId} {texts : List String} (ho : h'.object? id = some o)
    (hs : h'.Shows (.object id) .array o) (hc : o.content = .array ys) (hl : ys.length ≤ max)
    (ht : Tree h' lo (.object id) hi) (hclear : Clear seen lo hi)
    (hitems : ∀ {mid : Nat}, Trees h' lo ys mid → Clear (seen ++ [id]) lo mid →
      Within ((Renderer.mk h' noSelectors max).renderItems (seen ++ [id]) ys) texts lo mid) :
    Within ((Renderer.mk h' noSelectors max).render seen (.object id)) (arrayText ys texts) lo hi := by
  obtain ⟨mid, htrees, hmid, hid⟩ := ht.trees ho hc
  obtain ⟨hout, hentered⟩ := hitems htrees (hclear.enter hmid hid)
  rw [Within, render_of_items (r := ⟨h', noSelectors, max⟩) ho hs hc hl (hclear.not_mem ht.bounds.1 hid), hout]
  refine ⟨rfl, fun i hm => ?_⟩
  rcases List.mem_cons.1 hm with rfl | hm
  · exact ht.bounds
  · have := hentered i hm
    omega

theorem arrayText_congr {texts : List String} (hm : MatchesItems named h h' xs ys) :
    arrayText xs texts = arrayText ys texts := by
  unfold arrayText
  rw [if_congr hm.getLast_iff rfl rfl]

mutual

/-- **A value that matches one that is written has the same text**, when it is a tree that was not entered and nothing has
a name. -/
theorem render_of_matches (hn : ∀ v, ¬ named v) : ∀ {v v' : Value} {lo hi : Nat} {seen seen' : List ObjectId} {text : String},
    Matches named h h' v v' → Tree h' lo v' hi → Clear seen' lo hi →
      ((Renderer.mk h noSelectors max).render seen v).outcome = .ok text →
        Within ((Renderer.mk h' noSelectors max).render seen' v') text lo hi
  | _, _, _, _, seen, seen', _, .primitive hv, _, _, hx => by
    obtain ⟨t, ht⟩ := render_primitive hv
    rw [ht] at hx
    rw [Within, ht]
    exact ⟨hx, nofun⟩
  | _, _, _, _, _, _, _, .named hv, _, _, _ => absurd hv (hn _)
  | _, _, _, _, _, _, _, .regexp hs hc hs' hc' hp, ht, hclear, hx => by
    obtain ⟨id, rfl, ho⟩ := hs.found
    obtain ⟨id', rfl, ho'⟩ := hs'.found
    have hw := writes_regexp (r := ⟨h, noSelectors, max⟩) hs hc
    have hw' := writes_regexp (r := ⟨h', noSelectors, max⟩) hs' hc'
    rw [regexpText_eq, hp, ← regexpText_eq] at hw
    exact within_of_writes ho (by rw [hc]; nofun) hw ho' (by rw [hc']; nofun) hw' ht hclear hx
  | _, _, _, _, _, _, _, .date hs hc hs' hc' htime, ht, hclear, hx => by
    obtain ⟨id, rfl, ho⟩ := hs.found
    obtain ⟨id', rfl, ho'⟩ := hs'.found
    have hw := writes_date (r := ⟨h, noSelectors, max⟩) hs hc
    have hw' := writes_date (r := ⟨h', noSelectors, max⟩) hs' hc'
    rw [dateText, htime] at hw
    exact within_of_writes ho (by rw [hc]; nofun) hw ho' (by rw [hc']; nofun) hw' ht hclear hx
  | _, _, _, _, _, _, _, .function hs hc hs' hc', _, _, hx => by
    obtain ⟨id, rfl, ho⟩ := hs.found
    obtain ⟨id', rfl, ho'⟩ := hs'.found
    rw [render_function ho hc] at hx
    rw [Within, render_function ho' hc']
    exact ⟨hx, nofun⟩
  | _, _, _, _, _, _, _, .error hs hm hs' hm', ht, hclear, hx => by
    obtain ⟨id, rfl, ho⟩ := hs.found
    obtain ⟨id', rfl, ho'⟩ := hs'.found
    exact within_of_writes ho (not_function_of_error hs) (writes_error hs hm) ho' (not_function_of_error hs')
      (writes_error hs' hm') ht hclear hx
  | _, _, _, _, _, _, _, .array hs hc hs' hc' hi', ht, hclear, hx => by
    obtain ⟨id, rfl, ho⟩ := hs.found
    obtain ⟨id', rfl, ho'⟩ := hs'.found
    obtain ⟨hl, texts, hitems, rfl⟩ := items_of_array hs ho hc hx
    rw [arrayText_congr hi']
    exact within_array ho' hs' hc' (hi'.length_eq ▸ hl) ht hclear fun htrees hin =>
      renderItems_of_matches hn hi' htrees hin hitems

/-- The same for elements. -/
theorem renderItems_of_matches (hn : ∀ v, ¬ named v) : ∀ {xs ys : List (Option Value)} {lo hi : Nat}
    {seen seen' : List ObjectId} {texts : List String}, MatchesItems named h h' xs ys → Trees h' lo ys hi → Clear seen' lo hi →
      ((Renderer.mk h noSelectors max).renderItems seen xs).outcome = .ok texts →
        Within ((Renderer.mk h' noSelectors max).renderItems seen' ys) texts lo hi
  | _, _, _, _, _, _, _, .nil, _, _, hx => by
    rw [renderItems_nil] at hx
    rw [Within, renderItems_nil]
    exact ⟨hx, nofun⟩
  | _, _, _, _, _, _, _, .hole hr, .hole ht, hclear, hx => by
    rw [renderItems_hole] at hx
    obtain ⟨texts, hrest, rfl⟩ := eq_ok_of_map hx
    obtain ⟨hout, hentered⟩ := renderItems_of_matches hn hr ht hclear hrest
    rw [Within, renderItems_hole, hout]
    exact ⟨rfl, hentered⟩
  | _, _, _, _, _, _, _, .item hv hr, .item htv htr, hclear, hx => by
    obtain ⟨text, texts, hhead, hrest, rfl⟩ := item_of_ok hx
    have hle := htv.le
    have hle' := htr.le
    obtain ⟨hout, hentered⟩ := render_of_matches hn hv htv (hclear.front hle') hhead
    have hbehind := hclear.behind hle fun i hm => (hentered i hm).2
    obtain ⟨houts, hentereds⟩ := renderItems_of_matches hn hr htr hbehind hrest
    rw [Within, renderItems_item hout]
    refine ⟨congrArg (Except.map (text :: ·)) houts, fun i hm => ?_⟩
    rcases List.mem_append.1 hm with hm | hm
    · exact ⟨(hentered i hm).1, (hentered i hm).2.trans_le hle'⟩
    · exact ⟨hle.trans (hentereds i hm).1, (hentereds i hm).2⟩

end

end

/-- A registry without names knows no selectors. -/
theorem selectorFor_empty : Registry.selectorFor {} = noSelectors := by
  funext v
  simp [Registry.selectorFor, Registry.entries, noSelectors]

theorem not_named_empty (v : Value) : ¬ Registry.Named {} v := by
  rintro ⟨path, hp⟩
  rw [selectorFor_empty] at hp
  cases hp

/-- **The text of what a source comes to is a fixed point.**  When a source is read and evaluated without names, and its value
has a text, that text is read and evaluated, in whatever heap, to a value with the same text. -/
theorem source_stable {max : Nat} {source text : String} {e : Expr} {v : Value} {h : Heap}
    (hp : parseExpressionAt source 0 = .ok e) (he : Heap.evaluate {} {} source e = .ok (v, h))
    (ht : (Renderer.mk h noSelectors max).source v = .ok text) (h₁ : Heap) :
    ∃ e' v' h', parseExpressionAt text 0 = .ok e' ∧ h₁.evaluate {} text e' = .ok (v', h') ∧
      (Renderer.mk h' noSelectors max).source v' = .ok text := by
  have hpaths : Registry.HasPaths {} := fun _ _ hm => absurd hm List.not_mem_nil
  have hlegal : h.Legal := legal_of_evaluate hp (fun _ _ ho => by simp [Heap.object?] at ho) he
  have hl := (legible_of_render hpaths max).1 [] v (hlegal.readable v) text (by rwa [selectorFor_empty])
  obtain ⟨e', v', h', hp', -, he', -, hr⟩ := hl.recalled h₁
  have htree := (makes_of_evaluate (faithful_of_parse hp') he').tree
  exact ⟨e', v', h', hp', he',
    (render_of_matches not_named_empty (matches_of_recalled hr) htree (fun _ hm => absurd hm List.not_mem_nil) ht).1⟩

/-- Numbers and texts come to one spelling, an error to one with a message, and a hole at the end keeps its comma. -/
theorem source_stable_array : ∃ e v h,
    parseExpressionAt "[0x10, 'a', , TypeError(), /x/g,,]" 0 = .ok e ∧
    Heap.evaluate {} {} "[0x10, 'a', , TypeError(), /x/g,,]" e = .ok (v, h) ∧
    (Renderer.mk h noSelectors 100).source v = .ok "[16, \"a\", , TypeError(\"\"), /x/g, ,]" ∧
    ∃ e' v' h', parseExpressionAt "[16, \"a\", , TypeError(\"\"), /x/g, ,]" 0 = .ok e' ∧
      h.evaluate {} "[16, \"a\", , TypeError(\"\"), /x/g, ,]" e' = .ok (v', h') ∧
      (Renderer.mk h' noSelectors 100).source v' = .ok "[16, \"a\", , TypeError(\"\"), /x/g, ,]" := by
  have run : (parseExpressionAt "[0x10, 'a', , TypeError(), /x/g,,]" 0).toOption.any (fun e =>
      (Heap.evaluate {} {} "[0x10, 'a', , TypeError(), /x/g,,]" e).toOption.any fun r =>
        (Renderer.mk r.2 noSelectors 100).source r.1 |>.toOption.any
          (· == "[16, \"a\", , TypeError(\"\"), /x/g, ,]")) = true := by decide +kernel
  obtain ⟨e, hp, run⟩ := eq_ok_of_any run
  obtain ⟨⟨v, h⟩, he, run⟩ := eq_ok_of_any run
  obtain ⟨text, ht, run⟩ := eq_ok_of_any run
  obtain rfl := eq_of_beq run
  exact ⟨e, v, h, hp, he, ht, source_stable hp he ht h⟩

end Readback
