import Readback.Proofs.Value.Failure
/-!
# The steps of a walk

`Steps` counts the calls of a walk, and keeps a list of the objects whose contents it went through.  A walk that comes back took
such steps, and no walk takes them that does not come back (`walk_iff_steps`).  There is at most one for what the objects
that it had not entered might cost (`steps_of_walk`); it enters no object twice, and nothing that its value does not lead
to (`visits_of_steps`).  All of this is by induction on the steps, and so is true of a walk that is given up as well.
-/
namespace Readback.Renderer

variable {r : Renderer} {ask : Value → Option Kind} {kind : Kind} {seen : List ObjectId} {v : Value}

mutual

/-- A walk from a value, when these objects were entered before: how many calls it takes, the objects whose contents it
goes through, in order, and what it comes to.  Each step needs the kind of its value. -/
inductive Steps (r : Renderer) (ask : Value → Option Kind) :
    List ObjectId → Value → Nat → List ObjectId → Rendering String → Prop where
  | text {seen : List ObjectId} {v : Value} {kind : Kind} {outcome : Except Failure String} {entered : List ObjectId}
      (hk : ask v = some kind) (hp : r.planOf kind seen v = .text outcome entered) :
      Steps r ask seen v 1 [] ⟨outcome, entered⟩
  | array {seen : List ObjectId} {v : Value} {kind : Kind} {id : ObjectId} {elements : List (Option Value)} {n : Nat}
      {opened : List ObjectId} {items : Rendering (List String)} (hk : ask v = some kind)
      (hp : r.planOf kind seen v = .array id elements) (h : ItemSteps r ask (seen ++ [id]) elements n opened items) :
      Steps r ask seen v (n + 1) (id :: opened) ⟨r.arrayOutcome id elements items.outcome, id :: items.entered⟩
  | error {seen : List ObjectId} {v message : Value} {kind : Kind} {id : ObjectId} {sort : ErrorKind} {n : Nat}
      {opened : List ObjectId} {inner : Rendering String} (hk : ask v = some kind)
      (hp : r.planOf kind seen v = .error id sort message) (h : Steps r ask (seen ++ [id]) message n opened inner) :
      Steps r ask seen v (n + 1) (id :: opened) ⟨r.errorOutcome id sort inner.outcome, id :: inner.entered⟩

/-- The same for a list of elements, which is left at the first that has no text. -/
inductive ItemSteps (r : Renderer) (ask : Value → Option Kind) :
    List ObjectId → List (Option Value) → Nat → List ObjectId → Rendering (List String) → Prop where
  | nil {seen : List ObjectId} : ItemSteps r ask seen [] 0 [] ⟨.ok [], []⟩
  | hole {seen : List ObjectId} {rest : List (Option Value)} {n : Nat} {opened : List ObjectId}
      {tail : Rendering (List String)} (h : ItemSteps r ask seen rest n opened tail) :
      ItemSteps r ask seen (none :: rest) (n + 1) opened ⟨tail.outcome.map ("" :: ·), tail.entered⟩
  | stop {seen : List ObjectId} {v : Value} {rest : List (Option Value)} {n : Nat} {opened : List ObjectId}
      {head : Rendering String} {e : Failure} (h : Steps r ask seen v n opened head) (he : head.outcome = .error e) :
      ItemSteps r ask seen (some v :: rest) n opened ⟨.error e, head.entered⟩
  | item {seen : List ObjectId} {v : Value} {rest : List (Option Value)} {n m : Nat} {opened more : List ObjectId}
      {head : Rendering String} {tail : Rendering (List String)} {text : String} (h : Steps r ask seen v n opened head)
      (ht : head.outcome = .ok text) (hr : ItemSteps r ask (seen ++ head.entered) rest m more tail) :
      ItemSteps r ask seen (some v :: rest) (n + m) (opened ++ more)
        ⟨tail.outcome.map (text :: ·), head.entered ++ tail.entered⟩

end

/-! ## How many -/

/-- **A walk that comes back took steps, and what it entered has paid for them.** -/
theorem steps_of_walk (r : Renderer) (ask : Value → Option Kind) :
    (∀ seen v x, r.walk ask seen v = some x → ∃ n opened, Steps r ask seen v n opened x ∧
      n + r.heap.cost (seen ++ x.entered) ≤ r.heap.cost seen + 1) ∧
    (∀ seen elements x, r.walkItems ask seen elements = some x → ∃ n opened, ItemSteps r ask seen elements n opened x ∧
      n + r.heap.cost (seen ++ x.entered) ≤ r.heap.cost seen + elements.length) := by
  refine r.walk_induction ask
    (P := fun seen v x => ∃ n opened, Steps r ask seen v n opened x ∧
      n + r.heap.cost (seen ++ x.entered) ≤ r.heap.cost seen + 1)
    (Q := fun seen elements x => ∃ n opened, ItemSteps r ask seen elements n opened x ∧
      n + r.heap.cost (seen ++ x.entered) ≤ r.heap.cost seen + elements.length)
    ?text ?array ?error ?nil ?hole ?stop ?item
  case text =>
    intro seen v kind outcome entered hk hp
    have := r.heap.cost_append_le seen entered
    exact ⟨1, [], .text hk hp, by dsimp only; omega⟩
  case array =>
    rintro seen v kind id elements items hk hp ⟨n, opened, hn, hle⟩
    have hc := cost_of_planOf_array hp
    refine ⟨n + 1, id :: opened, .array hk hp hn, ?_⟩
    rw [← List.append_cons] at hle
    dsimp only
    omega
  case error =>
    rintro seen v kind id sort message inner hk hp ⟨n, opened, hn, hle⟩
    have hc := cost_of_planOf_error hp
    refine ⟨n + 1, id :: opened, .error hk hp hn, ?_⟩
    rw [← List.append_cons] at hle
    dsimp only
    omega
  case nil => exact ⟨0, [], .nil, by simp⟩
  case hole =>
    rintro seen rest tail ⟨n, opened, hn, hle⟩
    exact ⟨n + 1, opened, .hole hn, by simp only [List.length_cons]; omega⟩
  case stop =>
    rintro seen v rest head e ⟨n, opened, hn, hle⟩ he
    exact ⟨n, opened, .stop hn he, by simp only [List.length_cons]; omega⟩
  case item =>
    rintro seen v rest head text tail ⟨n, opened, hn, hle⟩ ht ⟨m, more, hm, hle'⟩
    refine ⟨n + m, opened ++ more, .item hn ht hm, ?_⟩
    rw [← List.append_assoc]
    simp only [List.length_cons]
    omega

mutual

/-- Whoever takes the steps comes back with what they come to. -/
theorem walk_of_steps : ∀ {seen : List ObjectId} {v : Value} {n : Nat} {opened : List ObjectId} {x : Rendering String},
    Steps r ask seen v n opened x → r.walk ask seen v = some x
  | _, _, _, _, _, .text hk hp => walk_text hk hp
  | _, _, _, _, _, .array hk hp h => (walk_array hk hp).trans (congrArg _ (walkItems_of_steps h))
  | _, _, _, _, _, .error hk hp h => (walk_error hk hp).trans (congrArg _ (walk_of_steps h))

theorem walkItems_of_steps : ∀ {seen : List ObjectId} {elements : List (Option Value)} {n : Nat} {opened : List ObjectId}
    {x : Rendering (List String)}, ItemSteps r ask seen elements n opened x → r.walkItems ask seen elements = some x
  | _, _, _, _, _, .nil => walkItems_nil
  | _, _, _, _, _, .hole h => walkItems_hole (walkItems_of_steps h)
  | _, _, _, _, _, .stop h he => walkItems_stop (walk_of_steps h) he
  | _, _, _, _, _, .item h ht hr => walkItems_item (walk_of_steps h) ht (walkItems_of_steps hr)

end

/-- **A walk comes back exactly when it takes a finite number of steps.** -/
theorem walk_iff_steps {x : Rendering String} :
    r.walk ask seen v = some x ↔ ∃ n opened, Steps r ask seen v n opened x := by
  constructor
  · intro h
    obtain ⟨n, opened, hn, -⟩ := (steps_of_walk r ask).1 seen v x h
    exact ⟨n, opened, hn⟩
  · rintro ⟨n, opened, hn⟩
    exact walk_of_steps hn

/-! ## What is entered -/

/-- What one walk may enter: objects that were not entered before, that are no functions, and that the value leads to.
The objects whose contents it goes through are among them, and in the same order. -/
structure Visits (r : Renderer) (seen : List ObjectId) (source : Value → Prop) (opened entered : List ObjectId) :
    Prop where
  nodup     : (seen ++ entered).Nodup
  reached   : ∀ id ∈ entered, ¬ r.heap.IsFunction id ∧ ∃ v, source v ∧ r.heap.Reachable v (.object id)
  sublist   : opened.Sublist entered

namespace Visits

theorem nil {source : Value → Prop} (hs : seen.Nodup) : Visits r seen source [] [] :=
  ⟨by simpa using hs, by simp, List.nil_sublist _⟩

/-- Nothing is said of where a walk started but what it can reach. -/
theorem widen {source source' : Value → Prop} {opened entered : List ObjectId} (h : Visits r seen source opened entered)
    (hw : ∀ id v, source v → r.heap.Reachable v (.object id) → ∃ w, source' w ∧ r.heap.Reachable w (.object id)) :
    Visits r seen source' opened entered := by
  refine ⟨h.nodup, fun id hid => ?_, h.sublist⟩
  obtain ⟨hf, w, hw', hr⟩ := h.reached id hid
  exact ⟨hf, hw id w hw' hr⟩

/-- An object is entered, and then what its contents lead to. -/
theorem enter {source : Value → Prop} {id : ObjectId} {opened entered : List ObjectId}
    (hf : ¬ r.heap.IsFunction id) (h : Visits r (seen ++ [id]) source opened entered)
    (hl : ∀ i v, source v → r.heap.Reachable v (.object i) → r.heap.Reachable (.object id) (.object i)) :
    Visits r seen (· = .object id) (id :: opened) (id :: entered) := by
  refine ⟨by rw [List.append_cons]; exact h.nodup, fun i hi => ?_, h.sublist.cons_cons id⟩
  rcases List.mem_cons.1 hi with rfl | hi
  · exact ⟨hf, _, rfl, .refl _⟩
  · obtain ⟨hf', v, hv, hr⟩ := h.reached i hi
    exact ⟨hf', _, rfl, hl i v hv hr⟩

/-- One walk after another. -/
theorem append {source : Value → Prop} {opened more entered later : List ObjectId}
    (h : Visits r seen source opened entered) (h' : Visits r (seen ++ entered) source more later) :
    Visits r seen source (opened ++ more) (entered ++ later) := by
  refine ⟨by rw [← List.append_assoc]; exact h'.nodup, fun id hid => ?_, h.sublist.append h'.sublist⟩
  rcases List.mem_append.1 hid with hid | hid
  · exact h.reached id hid
  · exact h'.reached id hid

end Visits

theorem nodup_append_singleton {id : ObjectId} (hn : id ∉ seen) (hs : seen.Nodup) : (seen ++ [id]).Nodup :=
  List.nodup_append.2 ⟨hs, by simp, fun a ha b hb => by rintro rfl; exact hn (List.mem_singleton.1 hb ▸ ha)⟩

/-- What is written at once enters its object at most, and only if that was not entered before. -/
theorem visits_of_planOf_text {outcome : Except Failure String} {entered : List ObjectId}
    (hp : r.planOf kind seen v = .text outcome entered) (hs : seen.Nodup) : Visits r seen (· = v) [] entered := by
  have one : ∀ {id : ObjectId}, ¬ r.heap.IsFunction id → id ∉ seen →
      Visits r seen (· = Value.object id) [] [id] := by
    intro id hf hn
    refine ⟨nodup_append_singleton hn hs, fun i hi => ?_, List.nil_sublist _⟩
    rw [List.mem_singleton.1 hi]
    exact ⟨hf, _, rfl, .refl _⟩
  unfold planOf at hp
  split at hp
  case h_7 id =>
    split at hp
    · rename_i ho
      split at hp <;> cases hp
      · exact .nil hs
      · refine one ?_ ‹_›
        rintro ⟨o, -, ho', -⟩
        cases ho.symm.trans ho'
    · rename_i o ho
      split at hp
      · cases hp; exact .nil hs
      · rename_i hc
        split at hp
        · cases hp; exact .nil hs
        · rw [(objectPlanOf_text hp).1]
          exact one (not_isFunction_of_content ho hc) ‹_›
  all_goals cases hp; exact .nil hs

/-- A function is written at once. -/
theorem not_isFunction_of_planOf {id : ObjectId}
    (hp : ∀ outcome entered, r.planOf kind seen (.object id) ≠ .text outcome entered) : ¬ r.heap.IsFunction id := by
  rintro ⟨o, source, ho, hc⟩
  refine hp (.ok source) [] ?_
  unfold planOf
  simp only [ho, hc]

theorem not_isFunction_of_planOf_array {id : ObjectId} {elements : List (Option Value)}
    (hp : r.planOf kind seen v = .array id elements) : ¬ r.heap.IsFunction id := by
  obtain ⟨rfl, -⟩ := planOf_array hp
  exact not_isFunction_of_planOf (by rw [hp]; exact nofun)

theorem not_isFunction_of_planOf_error {id : ObjectId} {sort : ErrorKind} {message : Value}
    (hp : r.planOf kind seen v = .error id sort message) : ¬ r.heap.IsFunction id := by
  obtain ⟨rfl, -⟩ := planOf_error hp
  exact not_isFunction_of_planOf (by rw [hp]; exact nofun)

mutual

/-- **What the steps of a walk enter.** -/
theorem visits_of_steps : ∀ {seen : List ObjectId} {v : Value} {n : Nat} {opened : List ObjectId} {x : Rendering String},
    Steps r ask seen v n opened x → seen.Nodup → Visits r seen (· = v) opened x.entered
  | _, _, _, _, _, .text _ hp, hs => visits_of_planOf_text hp hs
  | seen, v, _, _, _, .array _ hp hi, hs => by
    have hv := visits_of_itemSteps hi (nodup_append_singleton (planOf_array hp).2.1 hs)
    rw [(planOf_array hp).1]
    exact hv.enter (not_isFunction_of_planOf_array hp)
      (fun i w hw hr => hr.head ((planOf_array hp).1 ▸ leads_of_planOf_array hp hw))
  | seen, v, _, _, _, .error _ hp hi, hs => by
    have hv := visits_of_steps hi (nodup_append_singleton (planOf_error hp).2.1 hs)
    rw [(planOf_error hp).1]
    refine hv.enter (not_isFunction_of_planOf_error hp) (fun i w hw hr => ?_)
    subst hw
    -- the empty text that stands in for a message is no step from the error, and leads nowhere
    rcases leads_of_planOf_error hp with hl | rfl
    · exact hr.head ((planOf_error hp).1 ▸ hl)
    · exact (Heap.not_reachable_of_text hr).elim

theorem visits_of_itemSteps : ∀ {seen : List ObjectId} {elements : List (Option Value)} {n : Nat}
    {opened : List ObjectId} {x : Rendering (List String)},
    ItemSteps r ask seen elements n opened x → seen.Nodup → Visits r seen (some · ∈ elements) opened x.entered
  | _, _, _, _, _, .nil, hs => .nil hs
  | _, _, _, _, _, .hole hr, hs =>
    (visits_of_itemSteps hr hs).widen (fun _ w hw hr => ⟨w, List.mem_cons_of_mem _ hw, hr⟩)
  | _, _, _, _, _, .stop hv _, hs => (visits_of_steps hv hs).widen (fun _ w hw hr => ⟨w, hw ▸ List.mem_cons_self, hr⟩)
  | _, _, _, _, _, .item hv _ hr, hs =>
    have first := visits_of_steps hv hs
    (first.widen (fun _ w hw hr => ⟨w, hw ▸ List.mem_cons_self, hr⟩)).append
      ((visits_of_itemSteps hr first.nodup).widen (fun _ w hw hr => ⟨w, List.mem_cons_of_mem _ hw, hr⟩))

end

/-- **What a walk that comes back has visited.** -/
theorem visits_of_walk {x : Rendering String} (h : r.walk ask seen v = some x) (hs : seen.Nodup) :
    ∃ n opened, Steps r ask seen v n opened x ∧ n ≤ r.heap.cost seen + 1 ∧ Visits r seen (· = v) opened x.entered := by
  obtain ⟨n, opened, hn, hle⟩ := (steps_of_walk r ask).1 seen v x h
  exact ⟨n, opened, hn, by omega, visits_of_steps hn hs⟩

/-- **A walk ends, and keeps account of where it was.**  On every heap, whatever the walk comes to when it comes back: it has
taken no more steps than what was not entered before may cost; the objects it has entered are new, each is entered once,
none is a function, and all are reachable from the value; and it has gone through the contents of an object only when it
entered it, so at most once.  It comes back when every chain of prototypes that is followed on the way ends. -/
theorem render_visits (r : Renderer) (seen : List ObjectId) (v : Value) (hs : seen.Nodup) :
    (∀ x, r.render? seen v = some x →
      ∃ n opened, Steps r r.heap.kindOf? seen v n opened x ∧ n ≤ r.heap.cost seen + 1 ∧
        (seen ++ x.entered).Nodup ∧
        (∀ id ∈ x.entered, ¬ r.heap.IsFunction id ∧ r.heap.Reachable v (.object id)) ∧
        opened.Sublist x.entered ∧ opened.Nodup) ∧
    (r.heap.Grounded v → ∃ x, r.render? seen v = some x) := by
  refine ⟨fun x hx => ?_, fun hg => ⟨_, render?_of_grounded hg seen⟩⟩
  obtain ⟨n, opened, hn, hle, hv⟩ := visits_of_walk hx hs
  refine ⟨n, opened, hn, hle, hv.nodup, fun id hid => ?_, hv.sublist,
    hv.sublist.nodup (List.nodup_append.1 hv.nodup).2.1⟩
  obtain ⟨hf, w, rfl, hr⟩ := hv.reached id hid
  exact ⟨hf, hr⟩

/-- Two arrays that hold each other: the walk from the first enters both, comes upon the first again, and ends. -/
def ring : Renderer :=
  ⟨{ objects := #[.array [some (.object ⟨1⟩)], .array [some (.object ⟨0⟩), none]] }, noSelectors, 100⟩

/-- The walk around a cycle comes back and is accounted for: both arrays have been entered by its end. -/
theorem render_visits_ring :
    ([] : List ObjectId).Nodup ∧ ring.heap.Grounded (.object ⟨0⟩) ∧
      ∃ x, ring.render? [] (.object ⟨0⟩) = some x ∧ x.entered = [⟨0⟩, ⟨1⟩] ∧
        ∃ n opened, Steps ring ring.heap.kindOf? [] (.object ⟨0⟩) n opened x ∧ n ≤ 8 ∧ ([] ++ x.entered).Nodup ∧
          (∀ id ∈ x.entered, ¬ ring.heap.IsFunction id ∧ ring.heap.Reachable (.object ⟨0⟩) (.object id)) ∧
          opened.Sublist x.entered ∧ opened.Nodup := by
  have grounded : ring.heap.Grounded (.object ⟨0⟩) := .of_objects fun id o ho => by
    have hm : o ∈ ring.heap.objects := Array.mem_of_getElem? ho
    simp only [ring, List.mem_toArray, List.mem_cons, List.not_mem_nil, or_false] at hm
    rcases hm with rfl | rfl <;> exact ⟨[], .intrinsic⟩
  have cost : ring.heap.cost [] + 1 = 8 := by decide
  obtain ⟨visits, back⟩ := render_visits ring [] (.object ⟨0⟩) List.nodup_nil
  obtain ⟨x, hx⟩ := back grounded
  refine ⟨List.nodup_nil, grounded, x, hx, ?_, cost ▸ visits x hx⟩
  have outer : ring.plan [] (.object ⟨0⟩) = .array ⟨0⟩ [some (.object ⟨1⟩)] := rfl
  have inner : ring.plan [⟨0⟩] (.object ⟨1⟩) = .array ⟨1⟩ [some (.object ⟨0⟩), none] := rfl
  have again : ring.plan [⟨0⟩, ⟨1⟩] (.object ⟨0⟩) = .text (.error .recursion) [] := rfl
  have failed : (ring.render [⟨0⟩, ⟨1⟩] (.object ⟨0⟩)).outcome = .error .recursion := by rw [render_text again]
  have items : ring.renderItems [⟨0⟩, ⟨1⟩] [some (.object ⟨0⟩), none] = ⟨.error .recursion, []⟩ := by
    rw [renderItems_stop failed, render_text again]
  have given : (ring.render [⟨0⟩] (.object ⟨1⟩)) = ⟨.error (.noSelector "object"), [⟨1⟩]⟩ := by
    rw [render_array inner, List.singleton_append, items]
    rfl
  rw [eq_render hx, render_array outer, List.nil_append, renderItems_stop (congrArg Rendering.outcome given), given]

/-- From an object that is its own prototype no walk comes back, in no number of steps. -/
theorem ouroboros_endless : ([] : List ObjectId).Nodup ∧ ouroboros.render? [] (.object ⟨0⟩) = none ∧
    ¬ ∃ n opened x, Steps ouroboros ouroboros.heap.kindOf? [] (.object ⟨0⟩) n opened x := by
  refine ⟨List.nodup_nil, render?_ouroboros [], ?_⟩
  rintro ⟨n, opened, x, hn⟩
  cases (render?_ouroboros []).symm.trans (walk_of_steps hn)

end Readback.Renderer
