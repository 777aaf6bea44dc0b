import Readback.Proofs.Value.Prototype
/-!
# How a walk can fail

A walk fails at once when its value was entered before.  Below that, an array turns such a failure of an element into a
selector, and an error turns every failure of its message into one; so the only failure that comes out of a walk is that
some value on its way has no selector (`render_error_cases`).  That is, if the walk comes back: see `render_failures`.
-/
namespace Readback.Renderer

variable {r : Renderer} {seen : List ObjectId} {v : Value}

/-- The resolver gives the value no selector, or an empty one. -/
def Unnamed (r : Renderer) (v : Value) : Prop := ∀ path, r.resolver v = some path → path = ""

/-- A symbol, or an object that a selector would stand for, with the word that a failure has for it. -/
inductive CalledBy : Value → String → Prop where
  | symbol (id : SymbolId) : CalledBy (.symbol id) "symbol"
  | object (id : ObjectId) : CalledBy (.object id) "object"

/-- The failure is that a value that can be reached has no selector. -/
def Explained (r : Renderer) (v : Value) (e : Failure) : Prop :=
  ∃ w kind, e = .noSelector kind ∧ r.heap.Reachable v w ∧ r.Unnamed w ∧ CalledBy w kind

/-- The value is an object that was entered before; a function never counts as that. -/
def Again (r : Renderer) (seen : List ObjectId) (v : Value) : Prop :=
  ∃ id, v = .object id ∧ id ∈ seen ∧ ¬ r.heap.IsFunction id

/-! ## Selectors -/

/-- The kind is one whose values have selectors, and the word for it fits the value. -/
def Fits (kind : Kind) (v : Value) : Prop := kind.isSelectable = true ∧ CalledBy v kind.referenceName

theorem selector_error {kind : Kind} {e : Failure} (hk : kind.isSelectable = true)
    (h : r.selector kind v = .error e) : e = .noSelector kind.referenceName ∧ r.Unnamed v := by
  unfold selector at h
  rw [if_pos hk] at h
  cases hp : (r.resolver v).filter (· != "") with
  | some path => rw [hp] at h; cases h
  | none =>
    rw [hp] at h
    cases h
    refine ⟨rfl, fun path hpath => ?_⟩
    rw [hpath] at hp
    simpa [Option.filter] using hp

theorem explained_of_selector {kind : Kind} {e : Failure} (hf : Fits kind v) (h : r.selector kind v = .error e) :
    r.Explained v e := by
  obtain ⟨he, hn⟩ := selector_error hf.1 h
  exact ⟨v, _, he, .refl v, hn, hf.2⟩

theorem Explained.of_leads {w : Value} {e : Failure} (hw : r.heap.Leads v w) (h : r.Explained w e) :
    r.Explained v e := by
  obtain ⟨x, kind, he, hx, hn, hk⟩ := h
  exact ⟨x, kind, he, hx.head hw, hn, hk⟩

/-! ## Plans -/

/-- An object that is no function has a kind that a selector may stand for. -/
theorem fits_kindOf_object {id : ObjectId} (hf : ¬ r.heap.IsFunction id) :
    Fits (r.heap.kindOf (.object id)) (.object id) := by
  cases ho : r.heap.object? id with
  | none =>
    rw [Heap.kindOf, Heap.kindOf?, ho]
    exact ⟨rfl, .object id⟩
  | some o =>
    rw [Heap.kindOf_object ho, Heap.objectKind_eq]
    unfold Object.ownKind?
    split
    · rename_i kind hk
      split at hk <;> cases hk
      · rename_i source hc
        exact absurd ⟨o, source, ho, hc⟩ hf
      all_goals exact ⟨rfl, .object id⟩
    · split <;> exact ⟨rfl, .object id⟩

/-- **An object that is entered is written at once, or as its selector, or from its contents.** -/
theorem objectPlanOf_text {kind : Kind} {id : ObjectId} {o : Object} {outcome : Except Failure String}
    {entered : List ObjectId} (h : r.objectPlanOf kind id o = .text outcome entered) :
    entered = [id] ∧ ((∃ text, outcome = .ok text) ∨ outcome = r.selector kind (.object id)) := by
  unfold objectPlanOf at h
  split at h
  · cases h; exact ⟨rfl, .inl ⟨_, rfl⟩⟩
  · cases h; exact ⟨rfl, .inl ⟨_, rfl⟩⟩
  · split at h <;> cases h
    exact ⟨rfl, .inr rfl⟩
  · split at h <;> cases h
    exact ⟨rfl, .inl ⟨_, rfl⟩⟩
  · cases h; exact ⟨rfl, .inr rfl⟩

/-- **What a plan without contents amounts to**: a text, or that the value was entered before, or a selector. -/
theorem plan_text {outcome : Except Failure String} {entered : List ObjectId}
    (h : r.plan seen v = .text outcome entered) :
    (∃ text, outcome = .ok text) ∨ (outcome = .error .recursion ∧ r.Again seen v) ∨
      ∃ kind, outcome = r.selector kind v ∧ Fits kind v := by
  unfold plan planOf at h
  split at h
  case h_6 id =>
    cases h
    exact .inr (.inr ⟨_, rfl, rfl, .symbol id⟩)
  case h_7 id =>
    split at h
    · rename_i ho
      have hf : ¬ r.heap.IsFunction id := by
        rintro ⟨o, -, ho', -⟩
        cases ho.symm.trans ho'
      split at h <;> cases h
      · exact .inr (.inl ⟨rfl, id, rfl, ‹_›, hf⟩)
      · exact .inr (.inr ⟨_, rfl, fits_kindOf_object hf⟩)
    · rename_i o ho
      split at h
      · cases h; exact .inl ⟨_, rfl⟩
      · rename_i hc
        have hf := not_isFunction_of_content ho hc
        split at h
        · cases h; exact .inr (.inl ⟨rfl, id, rfl, ‹_›, hf⟩)
        · rcases (objectPlanOf_text h).2 with ht | ht
          · exact .inl ht
          · exact .inr (.inr ⟨_, ht, fits_kindOf_object hf⟩)
  all_goals cases h; exact .inl ⟨_, rfl⟩

/-- An object that was entered before, and is no function, has the plan to fail. -/
theorem plan_again (h : r.Again seen v) : r.plan seen v = .text (.error .recursion) [] := by
  obtain ⟨id, rfl, hs, hf⟩ := h
  unfold plan planOf
  dsimp only
  split
  · exact if_pos hs
  · rename_i o ho
    split
    · rename_i source hc
      exact absurd ⟨o, source, ho, hc⟩ hf
    · exact if_pos hs

/-! ## Walks -/

theorem eq_error_of_map {α β : Type} {f : α → β} {x : Except Failure α} {e : Failure} (h : x.map f = .error e) :
    x = .error e := by
  cases x with
  | error e' => cases h; rfl
  | ok a => cases h

/-- **A failed walk was at its value before, or comes from a value without a selector**; of a list of elements, one of
them is to blame. -/
theorem render_error_cases (r : Renderer) :
    (∀ seen v e, (r.render seen v).outcome = .error e → (e = .recursion ∧ r.Again seen v) ∨ r.Explained v e) ∧
    (∀ seen elements e, (r.renderItems seen elements).outcome = .error e →
      e = .recursion ∨ ∃ w, some w ∈ elements ∧ r.Explained w e) := by
  refine r.render_induction
    (P := fun seen v x => ∀ e, x.outcome = .error e → (e = .recursion ∧ r.Again seen v) ∨ r.Explained v e)
    (Q := fun _ elements x => ∀ e, x.outcome = .error e → e = .recursion ∨ ∃ w, some w ∈ elements ∧ r.Explained w e)
    ?text ?array ?error ?nil ?hole ?stop ?item
  case text =>
    intro seen v outcome entered hp e h
    rcases plan_text hp with ⟨text, ht⟩ | ⟨hr, ha⟩ | ⟨kind, hs, hf⟩
    · cases ht.symm.trans h
    · cases hr.symm.trans h; exact .inl ⟨rfl, ha⟩
    · exact .inr (explained_of_selector hf (hs.symm.trans h))
  case array =>
    intro seen v id elements items hp ih e h
    obtain ⟨rfl, -, -⟩ := planOf_array hp
    -- only a failure that is not recursion passes through an array
    dsimp only [arrayOutcome] at h
    split at h
    · cases h
    · exact .inr (explained_of_selector (show Fits .array _ from ⟨rfl, .object id⟩) h)
    · rename_i e' hne he'
      cases h
      obtain hr | ⟨w, hw, hx⟩ := ih e he'
      · exact absurd hr hne
      · exact .inr (hx.of_leads (leads_of_planOf_array hp hw))
  case error =>
    intro seen v id sort message inner hp _ e h
    obtain ⟨rfl, -, -⟩ := planOf_error hp
    dsimp only [errorOutcome] at h
    split at h
    · cases h
    · exact .inr (explained_of_selector (show Fits (.error (some sort)) _ from ⟨rfl, .object id⟩) h)
  case nil => exact fun e h => nomatch h
  case hole =>
    intro seen rest tail ih e h
    obtain hr | ⟨w, hw, hx⟩ := ih e (eq_error_of_map h)
    · exact .inl hr
    · exact .inr ⟨w, List.mem_cons_of_mem _ hw, hx⟩
  case stop =>
    intro seen v rest head e' ih he' e h
    cases h
    obtain ⟨hr, -⟩ | hx := ih e' he'
    · exact .inl hr
    · exact .inr ⟨v, List.mem_cons_self, hx⟩
  case item =>
    intro seen v rest head text tail _ _ ih e h
    obtain hr | ⟨w, hw, hx⟩ := ih e (eq_error_of_map h)
    · exact .inl hr
    · exact .inr ⟨w, List.mem_cons_of_mem _ hw, hx⟩

theorem render_eq_recursion_iff : (r.render seen v).outcome = .error .recursion ↔ r.Again seen v := by
  constructor
  · intro h
    rcases (render_error_cases r).1 seen v _ h with ⟨-, ha⟩ | ⟨w, kind, he, -⟩
    · exact ha
    · cases he
  · intro ha
    rw [render_text (plan_again ha)]

theorem source_error {e : Failure} (h : r.source v = .error e) : r.Explained v e := by
  rcases (render_error_cases r).1 [] v e h with ⟨-, id, -, hs, -⟩ | hx
  · cases hs
  · exact hx

theorem sourceSafe_ok (r : Renderer) (v : Value) : ∃ text, r.sourceSafe v = .ok text := by
  unfold sourceSafe safely
  split
  · exact ⟨_, rfl⟩
  · rename_i hn
    cases h : r.source v with
    | ok text => exact ⟨text, rfl⟩
    | error e =>
      obtain ⟨w, kind, rfl, -⟩ := source_error h
      exact absurd h (hn kind)

theorem eq_source {y : Except Failure String} (h : r.source? v = some y) : y = r.source v := by
  obtain ⟨x, hx, rfl⟩ := Option.map_eq_some_iff.1 h
  rw [eq_render hx, source]

theorem source?_of_grounded (hg : r.heap.Grounded v) : r.source? v = some (r.source v) := by
  rw [source?, render?_of_grounded hg, Option.map_some, source]

/-- **The failures of a walk.**  When it comes back, it has failed with recursion exactly if its value was entered before;
otherwise it fails only for want of a selector, of a value that can be reached.  So a walk of its own never fails with
recursion, succeeds when everything that can be reached is named, and has a text in any case when failures count as text.
All of these come back when every chain of prototypes that is followed on the way ends. -/
theorem render_failures (r : Renderer) (seen : List ObjectId) (v : Value) :
    (∀ x, r.render? seen v = some x →
      (x.outcome = .error .recursion ↔ ∃ id, v = .object id ∧ id ∈ seen ∧ ¬ r.heap.IsFunction id) ∧
      (∀ e, x.outcome = .error e → e = .recursion ∨ ∃ kind, e = .noSelector kind) ∧
      ∀ kind, x.outcome = .error (.noSelector kind) → ∃ w, r.heap.Reachable v w ∧ r.Unnamed w ∧ CalledBy w kind) ∧
    r.source? v ≠ some (.error .recursion) ∧
    ((∀ w, r.heap.Reachable v w → w.hasIdentity = true → ¬ r.Unnamed w) →
      ∀ y, r.source? v = some y → ∃ text, y = .ok text) ∧
    (∀ y, r.sourceSafe? v = some y → ∃ text, y = .ok text) ∧
    (r.heap.Grounded v →
      (∃ x, r.render? seen v = some x) ∧ (∃ y, r.source? v = some y) ∧ ∃ y, r.sourceSafe? v = some y) := by
  refine ⟨fun x hx => ?walk, fun h => ?own, fun hall y hy => ?named, fun y hy => ?safe, fun hg => ?back⟩
  case walk =>
    obtain rfl := eq_render hx
    have hcases := (render_error_cases r).1 seen v
    refine ⟨render_eq_recursion_iff, fun e h => ?_, fun kind h => ?_⟩
    · rcases hcases e h with ⟨hr, -⟩ | ⟨w, kind, he, -⟩
      · exact .inl hr
      · exact .inr ⟨kind, he⟩
    · rcases hcases _ h with ⟨hr, -⟩ | ⟨w, kind', he, hw, hn, hk⟩
      · cases hr
      · cases he; exact ⟨w, hw, hn, hk⟩
  case own =>
    obtain ⟨w, kind, he, -⟩ := source_error (eq_source h).symm
    cases he
  case named =>
    obtain rfl := eq_source hy
    cases h : r.source v with
    | ok text => exact ⟨text, rfl⟩
    | error e =>
      obtain ⟨w, kind, -, hw, hn, hk⟩ := source_error h
      exact absurd hn (hall w hw (by cases hk <;> rfl))
  case safe =>
    obtain ⟨x, hx, rfl⟩ := Option.map_eq_some_iff.1 hy
    rw [eq_source hx]
    exact sourceSafe_ok r v
  case back =>
    have hs := source?_of_grounded hg
    exact ⟨⟨_, render?_of_grounded hg seen⟩, ⟨_, hs⟩, ⟨_, congrArg (Option.map safely) hs⟩⟩

/-- An object that inherits from the errors of types, by another object, and has a selector. -/
def heir : Renderer where
  heap       := { objects := #[{ proto := .object ⟨1⟩, content := .ordinary }, .error .type none] }
  resolver _ := some "heir"

/-- Its chain of prototypes is followed to the end, and it is written. -/
theorem render_failures_heir : heir.heap.Grounded (.object ⟨0⟩) ∧
    (∀ w, heir.heap.Reachable (.object ⟨0⟩) w → w.hasIdentity = true → ¬ heir.Unnamed w) ∧
    ∃ text, heir.source? (.object ⟨0⟩) = some (.ok text) := by
  have last : heir.heap.Ends (.object ⟨1⟩) := ⟨[⟨1⟩], .object rfl .intrinsic⟩
  have grounded : heir.heap.Grounded (.object ⟨0⟩) := .of_objects fun id o ho => by
    have hm : o ∈ heir.heap.objects := Array.mem_of_getElem? ho
    simp only [heir, List.mem_toArray, List.mem_cons, List.not_mem_nil, or_false] at hm
    rcases hm with rfl | rfl
    · exact last
    · exact ⟨[], .intrinsic⟩
  have named : ∀ w, heir.heap.Reachable (.object ⟨0⟩) w → w.hasIdentity = true → ¬ heir.Unnamed w :=
    fun w _ _ hw => absurd (hw _ rfl) (by decide)
  obtain ⟨-, -, written, -, back⟩ := render_failures heir [] (.object ⟨0⟩)
  obtain ⟨-, ⟨y, hy⟩, -⟩ := back grounded
  obtain ⟨text, rfl⟩ := written named y hy
  exact ⟨grounded, named, text, hy⟩

/-- Nothing comes back from an object that is its own prototype: no failure, though it was entered before, and no text, though
it has a selector and leads nowhere else. -/
theorem ouroboros_unwritten :
    (∀ w, ouroboros.heap.Reachable (.object ⟨0⟩) w → w.hasIdentity = true → ¬ ouroboros.Unnamed w) ∧
    (¬ ∃ text, ouroboros.source? (.object ⟨0⟩) = some (.ok text)) ∧
    (¬ ∃ text, ouroboros.sourceSafe? (.object ⟨0⟩) = some (.ok text)) ∧
    ouroboros.Again [⟨0⟩] (.object ⟨0⟩) ∧
    ¬ ∃ x, ouroboros.render? [⟨0⟩] (.object ⟨0⟩) = some x ∧ x.outcome = .error .recursion := by
  have source : ouroboros.source? (.object ⟨0⟩) = none := by
    rw [source?, render?_ouroboros]
    rfl
  have safe : ouroboros.sourceSafe? (.object ⟨0⟩) = none := by
    rw [sourceSafe?, source]
    rfl
  refine ⟨fun w _ _ hw => ?_, ?_, ?_, ⟨⟨0⟩, rfl, List.mem_singleton_self _, ?_⟩, ?_⟩
  · exact absurd (hw _ rfl) (by decide)
  · rintro ⟨text, h⟩
    cases source.symm.trans h
  · rintro ⟨text, h⟩
    cases safe.symm.trans h
  · exact not_isFunction_of_content rfl nofun
  · rintro ⟨x, h, -⟩
    cases (render?_ouroboros _).symm.trans h

end Readback.Renderer
