import Readback.Proofs.Value.Faithful
import Readback.Proofs.Value.Prototype
/-!
# What evaluation does to the heap

Evaluating an expression looks values up and makes new ones; it changes no object that is there.  `Makes` is all that it can
do when the tree is true to its text, said without the tree (`makes_of_evaluate`).  Every object that it makes can be read
back (`Makes.legal`).
-/
namespace Readback

open Evaluator

/-! ## Objects that can be read back -/

/-- Wherever the object is, it can be read back as far as it goes: no other object has a say in this. -/
structure Object.Legal (o : Object) : Prop where
  intrinsic : ∃ which, o.proto = .intrinsic which
  regexps   : ∀ {pattern flags}, o.content = .regexp pattern flags → IsSplit pattern flags
  functions : ∀ {source}, o.content = .function source → IsFunctionText source
  messages  : ∀ {m}, o.properties.find? "message" = some m →
    (∃ s, m = .text s) ∨ o.content = .ordinary ∧ o.proto = .intrinsic .object

/-- All objects of the heap can be read back. -/
def Heap.Legal (h : Heap) : Prop := ∀ id o, h.object? id = some o → o.Legal

namespace Object

theorem legal_array (xs : List (Option Value)) : (array xs).Legal := ⟨⟨_, rfl⟩, nofun, nofun, nofun⟩

theorem legal_date (time : Number) : (date time).Legal := ⟨⟨_, rfl⟩, nofun, nofun, nofun⟩

theorem legal_ofEntries (entries : List (String × Value)) : (ofEntries entries).Legal :=
  ⟨⟨_, rfl⟩, nofun, nofun, fun _ => .inr ⟨rfl, rfl⟩⟩

theorem legal_regexp {pattern flags : String} (h : IsSplit pattern flags) : (regexp pattern flags).Legal := by
  refine ⟨⟨_, rfl⟩, ?_, nofun, nofun⟩
  rintro _ _ ⟨⟩
  exact h

theorem legal_function {source : String} (h : IsFunctionText source) : (function source).Legal := by
  refine ⟨⟨_, rfl⟩, nofun, ?_, nofun⟩
  rintro _ ⟨⟩
  exact h

theorem legal_error {sort : ErrorKind} {argument : Option Value} {message : Option Value}
    (h : errorMessage? argument = some message) : (error sort message).Legal := by
  refine ⟨⟨_, rfl⟩, nofun, nofun, fun hm => .inl ?_⟩
  unfold errorMessage? at h
  split at h <;> cases h
  · cases hm
  · cases hm
  · exact ⟨_, (Option.some.inj hm).symm⟩
  · exact ⟨_, (Option.some.inj hm).symm⟩

end Object

/-- An ordinary object with the prototype of ordinary objects is no error. -/
theorem objectKind_ordinary {h : Heap} {o : Object} (hc : o.content = .ordinary) (hp : o.proto = .intrinsic .object) :
    h.objectKind o = .object := by
  simp [Heap.objectKind_eq, Object.ownKind?, Heap.inherits, Heap.inherits?, Heap.chainReaches?, hc, hp]

/-- **What leads to nothing but legal objects can be read back.** -/
theorem Heap.Legal.readable {h : Heap} (hl : h.Legal) (v : Value) : Readable IsSplit h v := by
  refine .of_objects fun id o ho => ⟨fun _ _ hc => .inl ((hl id o ho).regexps hc), fun _ hc => (hl id o ho).functions hc, ?_⟩
  intro sort m hk hm
  refine ((hl id o ho).messages hm).resolve_right ?_
  rintro ⟨hc, hp⟩
  rw [objectKind_ordinary hc hp] at hk
  cases hk

/-- Its chains of prototypes all end at once, so every walk through it comes back. -/
theorem Heap.Legal.grounded {h : Heap} (hl : h.Legal) (v : Value) : h.Grounded v := by
  refine .of_objects fun id o ho => ?_
  obtain ⟨which, hp⟩ := (hl id o ho).intrinsic
  exact ⟨[], hp ▸ .intrinsic⟩

theorem Heap.Legal.newObject {h : Heap} (hl : h.Legal) {o : Object} (ho : o.Legal) : (h.newObject o).2.Legal := by
  intro id o' hid
  rcases Array.mem_push.1 (Array.mem_of_getElem? hid) with hm | rfl
  · obtain ⟨i, hi, rfl⟩ := Array.mem_iff_getElem.1 hm
    exact hl ⟨i⟩ _ (Array.getElem?_eq_getElem hi)
  · exact ho

/-! ## What evaluation does -/

mutual

/-- **What evaluation does**, when it comes to a value: it finds the value, or makes it, after making others. -/
inductive Makes (reg : Registry) : Heap → Value → Heap → Prop where
  | primitive {h : Heap} {v : Value} (hv : v.hasIdentity = false) : Makes reg h v h
  | named {h : Heap} {v : Value} {path : String} (hp : reg.lookup? path = some v) : Makes reg h v h
  | symbol {h : Heap} {description : Option String} :
      Makes reg h (h.newSymbol description).1 (h.newSymbol description).2
  | object {h : Heap} {o : Object} (ho : o.Legal) (hc : ∀ xs, o.content ≠ .array xs) :
      Makes reg h (h.newObject o).1 (h.newObject o).2
  | array {h h' : Heap} {xs : List (Option Value)} (hi : MakesItems reg h xs h') :
      Makes reg h (h'.newObject (.array xs)).1 (h'.newObject (.array xs)).2
  | after {h h' h'' : Heap} {xs : List (Option Value)} {v : Value} (hi : MakesItems reg h xs h')
      (hv : Makes reg h' v h'') : Makes reg h v h''

/-- The same for elements, one after the other. -/
inductive MakesItems (reg : Registry) : Heap → List (Option Value) → Heap → Prop where
  | nil {h : Heap} : MakesItems reg h [] h
  | hole {h h' : Heap} {xs : List (Option Value)} (hr : MakesItems reg h xs h') : MakesItems reg h (none :: xs) h'
  | item {h h' h'' : Heap} {v : Value} {xs : List (Option Value)} (hv : Makes reg h v h')
      (hr : MakesItems reg h' xs h'') : MakesItems reg h (some v :: xs) h''

end

namespace Evaluator

variable {α β : Type} {ev : Evaluator} {x : Evaluation α} {f : α → Evaluation β} {b : β} {e : Expr} {v : Value}
  {h h' : Heap}

theorem run_bind_eq_ok : (x >>= f).run h = .ok (b, h') ↔ ∃ a h₁, x.run h = .ok (a, h₁) ∧ (f a).run h₁ = .ok (b, h') := by
  rw [StateT.run_bind]
  cases x.run h with
  | error d => exact ⟨nofun, nofun⟩
  | ok p => exact ⟨fun hf => ⟨p.1, p.2, rfl, hf⟩, fun ⟨_, _, ha, hf⟩ => by cases ha; exact hf⟩

theorem makes_of_lookup (hv : (ev.lookup e).run h = .ok (v, h')) : Makes ev.registry h v h' := by
  unfold lookup at hv
  split at hv
  · cases hv
  · split at hv
    · rename_i hl
      cases hv
      exact .named hl
    · cases hv

theorem makes_of_name {n : String} (hv : (ev.name e n).run h = .ok (v, h')) : Makes ev.registry h v h' := by
  unfold Evaluator.name at hv
  split at hv
  · cases hv
    exact .primitive rfl
  split at hv
  · cases hv
    exact .primitive rfl
  split at hv
  · cases hv
    exact .primitive rfl
  · exact makes_of_lookup hv

theorem makes_of_construct {constructor : String} {argument : Option Value}
    (hv : (ev.construct e constructor argument).run h = .ok (v, h')) : Makes ev.registry h v h' := by
  unfold construct at hv
  split at hv
  · cases hv
    exact .object (Object.legal_date _) nofun
  · cases hv
    exact .object (Object.legal_date _) nofun
  · cases hv
    exact .symbol
  · cases hv
    exact .symbol
  · cases hv
    exact .symbol
  · split at hv
    · rename_i hm
      cases hv
      exact .object (Object.legal_error hm) nofun
    · cases hv

theorem hasIdentity_literal (value : Literal) : (literal value).hasIdentity = false := by cases value <;> rfl

theorem hasIdentity_applyUnary {op : UnaryOp} {w : Value} (hv : applyUnary? op w = some v) : v.hasIdentity = false := by
  unfold applyUnary? at hv
  split at hv <;> cases hv <;> rfl

/-- Whatever a value comes from the expression, evaluation does no more than it may. -/
def Does (ev : Evaluator) (e : Expr) : Prop :=
  ∀ {h : Heap} {v : Value} {h' : Heap}, (ev.evaluate e).run h = .ok (v, h') → Makes ev.registry h v h'

theorem makes_of_elements : ∀ {items : List (Option Expr)}, (∀ e, some e ∈ items → ev.Does e) →
    ∀ {h : Heap} {xs : List (Option Value)} {h' : Heap}, (ev.evaluateElements items).run h = .ok (xs, h') →
      MakesItems ev.registry h xs h'
  | [], _, h, xs, h', hx => by
    rw [evaluateElements] at hx
    cases hx
    exact .nil
  | none :: items, hi, h, xs, h', hx => by
    rw [evaluateElements] at hx
    obtain ⟨ys, h₁, hys, hx⟩ := run_bind_eq_ok.1 hx
    cases hx
    exact .hole (makes_of_elements (fun e he => hi e (List.mem_cons_of_mem _ he)) hys)
  | some e :: items, hi, h, xs, h', hx => by
    rw [evaluateElements] at hx
    obtain ⟨v, h₁, hv, hx⟩ := run_bind_eq_ok.1 hx
    obtain ⟨ys, h₂, hys, hx⟩ := run_bind_eq_ok.1 hx
    cases hx
    exact .item (hi e List.mem_cons_self hv) (makes_of_elements (fun e he => hi e (List.mem_cons_of_mem _ he)) hys)

theorem makes_of_properties : ∀ {items : List Property}, (∀ p ∈ items, ev.Does p.value) →
    ∀ {h : Heap} {entries : List (String × Value)} {h' : Heap}, (ev.evaluateProperties items).run h = .ok (entries, h') →
      MakesItems ev.registry h (entries.map fun entry => some entry.2) h'
  | [], _, h, entries, h', hx => by
    rw [evaluateProperties] at hx
    cases hx
    exact .nil
  | .shorthand s n :: items, hi, h, entries, h', hx => by
    rw [evaluateProperties] at hx
    obtain ⟨v, h₁, hv, hx⟩ := run_bind_eq_ok.1 hx
    obtain ⟨ys, h₂, hys, hx⟩ := run_bind_eq_ok.1 hx
    cases hx
    exact .item (makes_of_name hv) (makes_of_properties (fun p hp => hi p (List.mem_cons_of_mem _ hp)) hys)
  | .pair s key e :: items, hi, h, entries, h', hx => by
    rw [evaluateProperties.eq_def] at hx
    obtain ⟨name, h₁, hk, hx⟩ := run_bind_eq_ok.1 hx
    obtain ⟨v, h₂, hv, hx⟩ := run_bind_eq_ok.1 hx
    obtain ⟨ys, h₃, hys, hx⟩ := run_bind_eq_ok.1 hx
    cases hx
    obtain rfl : h₁ = h := by
      cases key with
      | computed => exact absurd hk nofun
      | name | text | number =>
        cases hk
        rfl
    exact .item (hi _ List.mem_cons_self hv) (makes_of_properties (fun p hp => hi p (List.mem_cons_of_mem _ hp)) hys)

theorem makes_of_call {callee : Expr} {args : List Expr} (hi : ∀ e ∈ args, ev.Does e)
    (hv : (ev.evaluateCall e callee args).run h = .ok (v, h')) : Makes ev.registry h v h' := by
  rw [evaluateCall.eq_def] at hv
  split at hv
  · split at hv
    · exact makes_of_construct hv
    · obtain ⟨w, h₁, hw, hv⟩ := run_bind_eq_ok.1 hv
      exact .after (.item (hi _ List.mem_cons_self hw) .nil) (makes_of_construct hv)
  · cases hv

/-- **What evaluating a tree does** that is true to its text. -/
theorem makes_of_evaluate (he : ev.Faithful e) : ev.Does e := by
  induction he with
  | @mk e own _ ih =>
    intro h v h' hv
    cases e with
    | literal s value =>
      rw [evaluate] at hv
      cases hv
      exact .primitive (hasIdentity_literal value)
    | identifier s n =>
      rw [evaluate] at hv
      exact makes_of_name hv
    | field s target n =>
      rw [evaluate] at hv
      exact makes_of_lookup hv
    | group s inner =>
      rw [evaluate] at hv
      exact ih inner List.mem_cons_self hv
    | unary s op operand =>
      rw [evaluate] at hv
      obtain ⟨w, h₁, hw, hv⟩ := run_bind_eq_ok.1 hv
      refine .after (.item (ih operand List.mem_cons_self hw) .nil) ?_
      split at hv
      · rename_i hu
        cases hv
        exact .primitive (hasIdentity_applyUnary hu)
      · cases hv
    | array s items =>
      rw [evaluate] at hv
      obtain ⟨xs, h₁, hx, hv⟩ := run_bind_eq_ok.1 hv
      cases hv
      exact .array (makes_of_elements (fun e he => ih e (List.mem_filterMap.2 ⟨some e, he, rfl⟩)) hx)
    | object s items =>
      rw [evaluate] at hv
      obtain ⟨entries, h₁, hx, hv⟩ := run_bind_eq_ok.1 hv
      cases hv
      exact .after (makes_of_properties (fun p hp => ih _ (List.mem_map_of_mem hp)) hx)
        (.object (Object.legal_ofEntries entries) (by rintro _ ⟨⟩))
    | regex s pattern flags =>
      rw [evaluate] at hv
      cases hv
      exact .object (Object.legal_regexp own) (by rintro _ ⟨⟩)
    | function s name params body =>
      rw [evaluate] at hv
      cases hv
      exact .object (Object.legal_function own) (by rintro _ ⟨⟩)
    | call s callee args =>
      rw [evaluate] at hv
      exact makes_of_call ih hv
    | new s callee args =>
      rw [evaluate] at hv
      exact makes_of_call ih hv
    | this | update | binary | assign | conditional | index | sequence =>
      rw [evaluate] at hv
      · cases hv
      all_goals intros; contradiction

end Evaluator

/-! ## What is made -/

variable {reg : Registry} {h h' : Heap} {v : Value} {xs : List (Option Value)}

mutual

/-- **What is made is legal**, and what was there stays so. -/
theorem Makes.legal : ∀ {h : Heap} {v : Value} {h' : Heap}, Makes reg h v h' → h.Legal → h'.Legal
  | _, _, _, .primitive _, hl | _, _, _, .named _, hl | _, _, _, .symbol, hl => hl
  | _, _, _, .object ho _, hl => hl.newObject ho
  | _, _, _, .array hi, hl => (hi.legal hl).newObject (Object.legal_array _)
  | _, _, _, .after hi hv, hl => hv.legal (hi.legal hl)

theorem MakesItems.legal : ∀ {h : Heap} {xs : List (Option Value)} {h' : Heap}, MakesItems reg h xs h' → h.Legal → h'.Legal
  | _, _, _, .nil, hl => hl
  | _, _, _, .hole hr, hl => hr.legal hl
  | _, _, _, .item hv hr, hl => hr.legal (hv.legal hl)

end

mutual

/-- What was there is still there. -/
theorem Makes.grows : ∀ {h : Heap} {v : Value} {h' : Heap}, Makes reg h v h' → h.Grows h'
  | _, _, _, .primitive _ | _, _, _, .named _ => .refl _
  | _, _, _, .symbol => Heap.grows_newSymbol _ _
  | _, _, _, .object _ _ => Heap.grows_newObject _ _
  | _, _, _, .array hi => hi.grows.trans (Heap.grows_newObject _ _)
  | _, _, _, .after hi hv => hi.grows.trans hv.grows

theorem MakesItems.grows : ∀ {h : Heap} {xs : List (Option Value)} {h' : Heap},
    MakesItems reg h xs h' → h.Grows h'
  | _, _, _, .nil => .refl _
  | _, _, _, .hole hr => hr.grows
  | _, _, _, .item hv hr => hv.grows.trans hr.grows

end

/-- **Evaluating what was read from a text makes objects that can be read back**, if all that are there can be. -/
theorem legal_of_evaluate {source : String} {e : Expr} (he : parseExpressionAt source 0 = .ok e) (hl : h.Legal)
    (hv : h.evaluate reg source e = .ok (v, h')) : h'.Legal :=
  (makes_of_evaluate (faithful_of_parse he) hv).legal hl

end Readback
