import Mathlib.Data.List.Nodup
import Mathlib.Data.List.Perm.Subperm
import Readback.Proofs.Value.Reach
/-!
# Chains of prototypes that end

The search along a chain of prototypes comes back exactly when the chain ends (`inherits?_isSome_iff`).  A chain that ends has
none of its objects twice and is no longer than the heap, so nothing is lost by the bound of the search
(`inherits?_eq_some_iff`).  A walk comes back when the objects that its value leads to have chains that end
(`render?_of_grounded`), and a walk that comes back comes to what `render` says (`eq_render`).
-/
namespace Readback

namespace Heap

variable {h : Heap} {p : Prototype} {ids ids' : List ObjectId} {id : ObjectId} {o : Object} {goal : Intrinsic} {v : Value}
  {kind : Kind}

/-- The objects of a chain that ends, in order. -/
inductive Chain (h : Heap) : Prototype → List ObjectId → Prop where
  | null : Chain h .null []
  | intrinsic {which : Intrinsic} : Chain h (.intrinsic which) []
  | missing {id : ObjectId} (ho : h.object? id = none) : Chain h (.object id) []
  | object {id : ObjectId} {o : Object} {ids : List ObjectId} (ho : h.object? id = some o) (hc : Chain h o.proto ids) :
      Chain h (.object id) (id :: ids)

theorem Chain.unique (hc : h.Chain p ids) (hc' : h.Chain p ids') : ids = ids' := by
  induction hc generalizing ids' with
  | null | intrinsic =>
    cases hc'
    rfl
  | missing ho =>
    cases hc' with
    | missing => rfl
    | object ho' => cases ho.symm.trans ho'
  | object ho _ ih =>
    cases hc' with
    | missing ho' => cases ho.symm.trans ho'
    | object ho' hc =>
      cases ho.symm.trans ho'
      rw [ih hc]

/-- From each of its objects on, the rest of a chain is a chain. -/
theorem Chain.of_mem (hc : h.Chain p ids) (hm : id ∈ ids) :
    ∃ tail, h.Chain (.object id) (id :: tail) ∧ (id :: tail).length ≤ ids.length := by
  induction hc with
  | null | intrinsic | missing => cases hm
  | @object _ _ ids ho hc ih =>
    rcases List.mem_cons.1 hm with rfl | hm
    · exact ⟨ids, .object ho hc, Nat.le_refl _⟩
    · obtain ⟨tail, ht, hl⟩ := ih hm
      exact ⟨tail, ht, Nat.le_succ_of_le hl⟩

/-- **A chain that ends has none of its objects twice**: it would go on from the second time as it did from the first. -/
theorem Chain.nodup (hc : h.Chain p ids) : ids.Nodup := by
  induction hc with
  | null | intrinsic | missing => exact List.nodup_nil
  | @object id _ ids ho hc ih =>
    refine List.nodup_cons.2 ⟨fun hm => ?_, ih⟩
    obtain ⟨tail, ht, hl⟩ := hc.of_mem hm
    cases ht.unique (.object ho hc)
    exact Nat.not_succ_le_self _ hl

theorem Chain.exists_object (hc : h.Chain p ids) (hm : id ∈ ids) : ∃ o, h.object? id = some o := by
  obtain ⟨tail, ht, -⟩ := hc.of_mem hm
  cases ht with
  | object ho _ => exact ⟨_, ho⟩

/-- **So it is no longer than the heap.** -/
theorem Chain.length_le (hc : h.Chain p ids) : ids.length ≤ h.objects.size := by
  have hn : (ids.map ObjectId.index).Nodup := hc.nodup.map fun i j hij => by
    cases i
    exact congrArg ObjectId.mk hij
  have hs : ids.map ObjectId.index ⊆ List.range h.objects.size := by
    intro i hi
    obtain ⟨id, hm, rfl⟩ := List.mem_map.1 hi
    obtain ⟨o, ho⟩ := hc.exists_object hm
    exact List.mem_range.2 (Array.getElem?_eq_some_iff.1 ho).1
  simpa using (hn.subperm hs).length_le

/-- The chain comes to an end. -/
def Ends (h : Heap) (p : Prototype) : Prop := ∃ ids, h.Chain p ids

/-! ## Searches -/

theorem chainReaches?_object (ho : h.object? id = some o) (n : Nat) :
    h.chainReaches? goal (n + 1) (.object id) = h.chainReaches? goal n o.proto := by
  rw [chainReaches?.eq_def]
  simp only [ho]

/-- Along a chain that ends, the search has one answer, when it goes far enough for one. -/
theorem chainReaches?_of_chain (hc : h.Chain p ids) (goal : Intrinsic) :
    ∃ found, ∀ n, h.chainReaches? goal n p = if ids.length ≤ n then some found else none := by
  induction hc with
  | null | intrinsic =>
    exact ⟨_, fun n => by rw [chainReaches?.eq_def]; exact (if_pos (Nat.zero_le n)).symm⟩
  | missing ho => exact ⟨false, fun n => by cases n <;> simp [chainReaches?, ho]⟩
  | object ho _ ih =>
    obtain ⟨found, hf⟩ := ih
    refine ⟨found, fun n => ?_⟩
    cases n with
    | zero => simp [chainReaches?, ho]
    | succ n =>
      rw [chainReaches?_object ho, hf]
      simp only [List.length_cons, Nat.add_le_add_iff_right]

/-- A search that has an answer came to the end of its chain. -/
theorem ends_of_chainReaches? : ∀ {n : Nat} {p : Prototype} {found : Bool}, h.chainReaches? goal n p = some found → h.Ends p
  | _, .null, _, _ => ⟨[], .null⟩
  | _, .intrinsic _, _, _ => ⟨[], .intrinsic⟩
  | n, .object id, found, hf => by
    cases ho : h.object? id with
    | none => exact ⟨[], .missing ho⟩
    | some o =>
      cases n with
      | zero => simp [chainReaches?, ho] at hf
      | succ n =>
        rw [chainReaches?_object ho] at hf
        obtain ⟨ids, hc⟩ := ends_of_chainReaches? hf
        exact ⟨id :: ids, .object ho hc⟩

/-- **The answer is that of a search without a bound.** -/
theorem inherits?_eq_some_iff {found : Bool} :
    h.inherits? o goal = some found ↔ ∃ n, h.chainReaches? goal n o.proto = some found := by
  refine ⟨fun hf => ⟨_, hf⟩, fun ⟨n, hn⟩ => ?_⟩
  obtain ⟨ids, hc⟩ := ends_of_chainReaches? hn
  obtain ⟨found', hf⟩ := chainReaches?_of_chain hc goal
  rw [inherits?, hf, if_pos hc.length_le]
  rw [hf] at hn
  split at hn
  · exact hn
  · cases hn

/-- **The search comes back exactly from the chains that end.** -/
theorem inherits?_isSome_iff : (h.inherits? o goal).isSome = true ↔ h.Ends o.proto := by
  rw [Option.isSome_iff_exists]
  constructor
  · rintro ⟨found, hf⟩
    exact ends_of_chainReaches? hf
  · rintro ⟨ids, hc⟩
    obtain ⟨found, hf⟩ := chainReaches?_of_chain hc goal
    exact ⟨found, (hf _).trans (if_pos hc.length_le)⟩

/-! ## Kinds -/

theorem kindOf_eq_of_kindOf? (hk : h.kindOf? v = some kind) : h.kindOf v = kind := by rw [kindOf, hk, Option.getD_some]

/-- **The kind of an object is found** when its content tells it, or its chain of prototypes ends. -/
theorem objectKind?_isSome_iff :
    (h.objectKind? o).isSome = true ↔ o.ownKind?.isSome = true ∨ o.content = .error ∨ h.Ends o.proto := by
  unfold objectKind?
  cases o.ownKind? with
  | some kind => simp
  | none =>
    rw [← @inherits?_isSome_iff h o (.error .error)]
    by_cases hc : o.content = .error <;> simp [hc]

/-- Whatever kind is asked for on the way from a value is found: the objects that it leads to have chains of prototypes that
end.  Functions are told by their content, and so is what was made as an error. -/
def Grounded (h : Heap) (v : Value) : Prop :=
  ∀ id o, h.Reachable v (.object id) → h.object? id = some o → ¬ h.IsFunction id → o.content ≠ .error → h.Ends o.proto

theorem Grounded.of_reachable {w : Value} (hg : h.Grounded v) (hr : h.Reachable v w) : h.Grounded w :=
  fun id o hw => hg id o (hr.trans hw)

/-- It is enough that all objects of the heap have such chains. -/
theorem Grounded.of_objects (he : ∀ id o, h.object? id = some o → h.Ends o.proto) : h.Grounded v :=
  fun id o _ ho _ _ => he id o ho

theorem Grounded.kindOf? (hg : h.Grounded v) : h.kindOf? v = some (h.kindOf v) := by
  cases v with
  | object id =>
    cases ho : h.object? id with
    | none => simp only [Heap.kindOf, Heap.kindOf?, ho, Option.getD_some]
    | some o =>
      have hk : (h.objectKind? o).isSome = true := by
        rw [objectKind?_isSome_iff]
        by_cases hf : h.IsFunction id
        · obtain ⟨o', source, ho', hc⟩ := hf
          cases ho.symm.trans ho'
          exact .inl (by simp [Object.ownKind?, hc])
        · by_cases hc : o.content = .error
          · exact .inr (.inl hc)
          · exact .inr (.inr (hg id o (.refl _) ho hf hc))
      obtain ⟨kind, hk⟩ := Option.isSome_iff_exists.1 hk
      simp only [Heap.kindOf, Heap.kindOf?, ho, hk, Option.getD_some]
  | _ => rfl

end Heap

namespace Renderer

variable {r : Renderer} {seen : List ObjectId} {v : Value} {x : Rendering String}

/-! ## Walks -/

/-- **A walk that comes back comes to what `render` does.** -/
theorem eq_render_all (r : Renderer) :
    (∀ seen v x, r.render? seen v = some x → x = r.render seen v) ∧
    (∀ seen elements x, r.renderItems? seen elements = some x → x = r.renderItems seen elements) := by
  refine r.walk_induction r.heap.kindOf? (P := fun seen v x => x = r.render seen v)
    (Q := fun seen elements x => x = r.renderItems seen elements) ?text ?array ?error ?nil ?hole ?stop ?item
  case text =>
    intro seen v kind outcome entered hk hp
    cases Heap.kindOf_eq_of_kindOf? hk
    exact (render_text hp).symm
  case array =>
    rintro seen v kind id elements _ hk hp rfl
    cases Heap.kindOf_eq_of_kindOf? hk
    exact (render_array hp).symm
  case error =>
    rintro seen v kind id sort message _ hk hp rfl
    cases Heap.kindOf_eq_of_kindOf? hk
    exact (render_error hp).symm
  case nil => exact renderItems_nil.symm
  case hole =>
    rintro seen rest _ rfl
    exact renderItems_hole.symm
  case stop =>
    rintro seen v rest _ e rfl he
    exact (renderItems_stop he).symm
  case item =>
    rintro seen v rest _ text _ rfl ht rfl
    exact (renderItems_item ht).symm

theorem eq_render (h : r.render? seen v = some x) : x = r.render seen v := (eq_render_all r).1 seen v x h

/-- What a walk from the value asks for is answered with the kinds that the values have.  A text may stand in for the message
of an error. -/
def Answers (r : Renderer) (ask : Value → Option Kind) (v : Value) : Prop :=
  ∀ w, r.heap.Reachable v w ∨ (∃ s, w = .text s) → ask w = some (r.heap.kindOf w)

theorem Answers.of_leads {ask : Value → Option Kind} {w : Value} (ha : r.Answers ask v) (hl : r.heap.Leads v w) :
    r.Answers ask w :=
  fun u hu => ha u (hu.imp_left (·.head hl))

theorem Answers.of_text {ask : Value → Option Kind} (ha : r.Answers ask v) (s : String) : r.Answers ask (.text s) := by
  rintro u (hu | hu)
  · rcases Relation.ReflTransGen.cases_head hu with rfl | ⟨w, hl, -⟩
    · exact ha _ (.inr ⟨s, rfl⟩)
    · cases hl
  · exact ha u (.inr hu)

/-- **A walk comes back when it is answered**, and comes to what `render` does. -/
theorem walk_eq_render_all (r : Renderer) (ask : Value → Option Kind) :
    (∀ seen v, r.Answers ask v → r.walk ask seen v = some (r.render seen v)) ∧
    (∀ seen elements, (∀ v, some v ∈ elements → r.Answers ask v) →
      r.walkItems ask seen elements = some (r.renderItems seen elements)) := by
  refine r.render_induction (P := fun seen v x => r.Answers ask v → r.walk ask seen v = some x)
    (Q := fun seen elements x => (∀ v, some v ∈ elements → r.Answers ask v) → r.walkItems ask seen elements = some x)
    ?text ?array ?error ?nil ?hole ?stop ?item
  case text => exact fun hp ha => walk_text (ha _ (.inl (.refl _))) hp
  case array =>
    intro seen v id elements items hp ih ha
    have hi := ih fun w hw => ha.of_leads (leads_of_planOf_array hp hw)
    exact (walk_array (ha _ (.inl (.refl _))) hp).trans (congrArg _ hi)
  case error =>
    intro seen v id sort message inner hp ih ha
    have hm : r.Answers ask message := by
      rcases leads_of_planOf_error hp with hl | rfl
      · exact ha.of_leads hl
      · exact ha.of_text ""
    exact (walk_error (ha _ (.inl (.refl _))) hp).trans (congrArg _ (ih hm))
  case nil => exact fun _ => walkItems_nil
  case hole => exact fun ih ha => walkItems_hole (ih fun w hw => ha w (List.mem_cons_of_mem _ hw))
  case stop => exact fun ih he ha => walkItems_stop (ih (ha _ List.mem_cons_self)) he
  case item =>
    exact fun ihv ht ihr ha =>
      walkItems_item (ihv (ha _ List.mem_cons_self)) ht (ihr fun w hw => ha w (List.mem_cons_of_mem _ hw))

/-- **A walk comes back when every kind it asks for is found.** -/
theorem render?_of_grounded (hg : r.heap.Grounded v) (seen : List ObjectId) : r.render? seen v = some (r.render seen v) := by
  refine (walk_eq_render_all r _).1 seen v fun w hw => ?_
  rcases hw with hw | ⟨s, rfl⟩
  · exact (hg.of_reachable hw).kindOf?
  · rfl

/-- A walk does not come back from a value whose kind is not found. -/
theorem render?_eq_none (hk : r.heap.kindOf? v = none) : r.render? seen v = none := by
  rw [render?, walk, hk]
  rfl

/-- An object that is its own prototype, and has a selector. -/
def ouroboros : Renderer where
  heap       := { objects := #[{ proto := .object ⟨0⟩, content := .ordinary }] }
  resolver _ := some "ouroboros"

/-- No walk comes back from it. -/
theorem render?_ouroboros (seen : List ObjectId) : ouroboros.render? seen (.object ⟨0⟩) = none := render?_eq_none (by decide)

end Renderer

end Readback
