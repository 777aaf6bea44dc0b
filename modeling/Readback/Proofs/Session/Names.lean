import Readback.Proofs.Session.History
/-!
# The names of results

Results get their names one after the other, and keep them.  So the registry of a session is its history: the names are
numbered in the order in which they were given, no two are of the same result, and all are of results that need one.
-/
namespace Readback

/-! ## Names with numbers -/

theorem decimal_injective {j k : Nat} (h : Text.decimal j = Text.decimal k) : j = k := by
  have hd : Text.digits j = Text.digits k := String.ofList_injective h
  rw [← Text.valueOf_digits j, hd, Text.valueOf_digits]

theorem append_decimal_inj {name : String} {j k : Nat} (h : name ++ Text.decimal j = name ++ Text.decimal k) : j = k := by
  have hl := congrArg String.toList h
  rw [String.toList_append, String.toList_append] at hl
  exact decimal_injective (String.toList_inj.1 (List.append_cancel_left hl))

theorem Dictionary.entries_insert {α : Type} {d : Dictionary α} {key : String} {value : α} (h : key ∉ d.keys) :
    (d.insert key value).entries = d.entries ++ [(key, value)] := by
  unfold Dictionary.insert
  rw [dif_neg h]

/-! ## Values that need names -/

variable {h h' : Heap} {v w : Value} {reg : Registry}

/-- A value that needs a name equals no other. -/
theorem equals_of_needsName (hk : Session.needsName (h.kindOf v) = true) : v.equals w = (v == w) := by
  cases v with
  | symbol | object => rfl
  | number => cases hk
  | _ => rfl

/-- The value is no object, or one of the heap. -/
def Heap.Has (h : Heap) (v : Value) : Prop := ∀ id, v = .object id → ∃ o, h.object? id = some o

theorem Heap.Has.grows (hv : h.Has v) (hg : h.Grows h') : h'.Has v := by
  intro id hid
  obtain ⟨o, ho⟩ := hv id hid
  exact ⟨o, hg id o ho⟩

theorem Heap.has_newObject (h : Heap) (o : Object) : (h.newObject o).2.Has (h.newObject o).1 := by
  intro id hid
  cases hid
  exact ⟨o, Heap.object?_newObject h o⟩

/-- Whether an object needs a name, it says itself: what inherits from errors is an error, and what does not is an object. -/
theorem needsName_objectKind (h h' : Heap) (o : Object) :
    Session.needsName (h.objectKind o) = Session.needsName (h'.objectKind o) := by
  rw [Heap.objectKind_eq, Heap.objectKind_eq]
  split
  · rfl
  · split <;> split <;> rfl

theorem needsName_grows (hk : Session.needsName (h.kindOf v) = true) (hv : h.Has v) (hg : h.Grows h') :
    Session.needsName (h'.kindOf v) = true := by
  cases v with
  | object id =>
    obtain ⟨o, ho⟩ := hv id rfl
    rw [Heap.kindOf_object ho] at hk
    rw [Heap.kindOf_object (hg id o ho), needsName_objectKind h' h, hk]
  | _ => exact hk

/-- **What evaluation comes to is in the heap**, if what has names is. -/
theorem Makes.has : ∀ {h : Heap} {v : Value} {h' : Heap}, Makes reg h v h' → (∀ b ∈ reg.entries, h.Has b.2) → h'.Has v
  | _, _, _, .primitive hv, _ => by
    intro id hid
    subst hid
    cases hv
  | _, _, _, .named hp, hr => by
    obtain ⟨b, hb, rfl⟩ := Option.map_eq_some_iff.1 hp
    exact hr b (List.mem_of_find?_eq_some hb)
  | _, _, _, .symbol, _ => by
    intro id hid
    cases hid
  | _, _, _, .object _ _, _ | _, _, _, .array _, _ => Heap.has_newObject _ _
  | _, _, _, .after hi hv, hr => hv.has fun b hb => (hr b hb).grows hi.grows

namespace Session

variable {s : Session} {line : String} {heap : Heap}

theorem makes_of_evaluate (he : s.evaluate line = .ok (v, heap)) : Makes s.registry s.heap v heap := by
  obtain ⟨text, e, -, hp, hv⟩ := evaluate_eq_ok.1 he
  exact Evaluator.makes_of_evaluate (faithful_of_parse hp) hv

/-! ## What is known of the names -/

/-- The names of a session are numbered, and are of different values that need one. -/
structure Kept (s : Session) : Prop where
  keys  : s.registry.bindings.keys = (List.range s.counter).map fun i => s.config.historyName ++ Text.decimal (i + 1)
  apart : s.registry.entries.Pairwise fun x y => x.2 ≠ y.2
  needs : ∀ b ∈ s.registry.entries, needsName (s.heap.kindOf b.2) = true
  has   : ∀ b ∈ s.registry.entries, s.heap.Has b.2

theorem kept_start (config : SessionConfig) : ({ config := config } : Session).Kept :=
  ⟨rfl, .nil, fun _ hb => absurd hb List.not_mem_nil, fun _ hb => absurd hb List.not_mem_nil⟩

/-- The next name was not given yet. -/
theorem Kept.nextName_not_mem (hs : s.Kept) : s.nextName ∉ s.registry.bindings.keys := by
  rw [hs.keys]
  intro hm
  obtain ⟨i, hi, hn⟩ := List.mem_map.1 hm
  have := append_decimal_inj hn
  have := List.mem_range.1 hi
  omega

/-- A name for a value that has none comes behind the others. -/
theorem Kept.entries_remember (hs : s.Kept) (hk : needsName (s.heap.kindOf v) = true) (hn : s.registry.names v = false) :
    (s.remember v).registry.entries = s.registry.entries ++ [(s.nextName, v)] ∧ (s.remember v).counter = s.counter + 1 := by
  unfold remember
  rw [if_pos (by rw [hk, hn]; rfl)]
  exact ⟨Dictionary.entries_insert hs.nextName_not_mem, rfl⟩

theorem remember_of_names (h : ¬ (needsName (s.heap.kindOf v) = true ∧ s.registry.names v = false)) : s.remember v = s := by
  unfold remember
  rw [if_neg (by simpa using h)]

/-- A value without a name is none of those that have one. -/
theorem ne_of_names (hk : needsName (s.heap.kindOf v) = true) (hn : s.registry.names v = false) :
    ∀ b ∈ s.registry.entries, b.2 ≠ v := by
  rintro b hb rfl
  have := List.any_eq_false.1 hn b hb
  rw [equals_of_needsName hk, beq_self_eq_true] at this
  exact this rfl

/-- **Remembering a value keeps the history.** -/
theorem Kept.remember (hs : s.Kept) (hv : s.heap.Has v) : (s.remember v).Kept := by
  by_cases h : needsName (s.heap.kindOf v) = true ∧ s.registry.names v = false
  · obtain ⟨he, hc⟩ := hs.entries_remember h.1 h.2
    have hall : ∀ {P : Value → Prop}, (∀ b ∈ s.registry.entries, P b.2) → P v →
        ∀ b ∈ s.registry.entries ++ [(s.nextName, v)], P b.2 := by
      intro P hp hv b hb
      rcases List.mem_append.1 hb with hb | hb
      · exact hp b hb
      · exact List.mem_singleton.1 hb ▸ hv
    refine ⟨?_, ?_, ?_, ?_⟩
    · show (s.remember v).registry.entries.map Prod.fst = _
      rw [he, hc, config_remember, List.map_append, List.range_succ, List.map_append, ← hs.keys]
      rfl
    · rw [he, List.pairwise_append]
      exact ⟨hs.apart, List.pairwise_singleton _ _, fun b hb c hc => List.mem_singleton.1 hc ▸ ne_of_names h.1 h.2 b hb⟩
    · rw [he, heap_remember]
      exact hall (P := fun w => needsName (s.heap.kindOf w) = true) hs.needs h.1
    · rw [he, heap_remember]
      exact hall hs.has hv
  · rwa [remember_of_names h]

/-- **Evaluating a line keeps the history**, and comes to a value of the heap. -/
theorem Kept.evaluate (hs : s.Kept) (he : s.evaluate line = .ok (v, heap)) :
    ({ s with heap := heap } : Session).Kept ∧ heap.Has v := by
  have hm := makes_of_evaluate he
  refine ⟨⟨hs.keys, hs.apart, fun b hb => ?_, fun b hb => ?_⟩, hm.has hs.has⟩
  · exact needsName_grows (hs.needs b hb) (hs.has b hb) hm.grows
  · exact (hs.has b hb).grows hm.grows

/-- **One line keeps the history**, whether it fails or not. -/
theorem Kept.inspect (hs : s.Kept) (line : String) : (s.inspect line).2.Kept := by
  unfold Session.inspect
  split
  · exact hs
  · rename_i he
    obtain ⟨hk, hv⟩ := hs.evaluate he
    exact hk.remember hv

/-- **So do any lines.** -/
theorem Kept.after (hs : s.Kept) (lines : List String) : (s.after lines).Kept := by
  induction lines generalizing s with
  | nil => exact hs
  | cons line lines ih => exact ih (hs.inspect line)

theorem config_after (s : Session) (lines : List String) : (s.after lines).config = s.config := by
  induction lines generalizing s with
  | nil => rfl
  | cons line lines ih => exact (ih _).trans (config_inspect s line)

/-! ## The history -/

/-- The kinds of values that get names. -/
def IsReference (k : Kind) : Prop := k = .object ∨ k = .symbol ∨ k = .array ∨ ∃ sort, k = .error sort

theorem needsName_iff {k : Kind} : needsName k = true ↔ IsReference k := by
  cases k <;> simp [needsName, IsReference]

/-- The history of a session: so many names as were counted, with the numbers from one on, each for a value that no other
name is for. -/
structure History (config : SessionConfig) (s : Session) : Prop where
  count : s.registry.size = s.counter
  path  : ∀ i (hi : i < s.registry.entries.length), s.registry.entries[i].1 = config.historyName ++ Text.decimal (i + 1)
  apart : ∀ i j (hi : i < s.registry.entries.length) (hj : j < s.registry.entries.length), i ≠ j →
    s.registry.entries[i].2.equals s.registry.entries[j].2 = false
  kind  : ∀ b ∈ s.registry.entries, IsReference (s.heap.kindOf b.2)

/-- What a line does to the names: it leaves them as they are, or it gives one more to the value that it comes to, which
needs a name and has none. -/
inductive Adds (s : Session) (line : String) (s' : Session) : Prop where
  | nothing (h : s'.registry.entries = s.registry.entries)
  | name {v : Value} {heap : Heap} (he : s.evaluate line = .ok (v, heap)) (hk : IsReference (heap.kindOf v))
      (hn : s.registry.names v = false) (h : s'.registry.entries = s.registry.entries ++ [(s.nextName, v)])

theorem Kept.history (hs : s.Kept) : History s.config s := by
  have hlen : s.registry.entries.length = s.counter := by
    rw [← List.length_map (f := Prod.fst)]
    exact (congrArg List.length hs.keys).trans (by simp)
  refine ⟨hlen, fun i hi => ?_, fun i j hi hj hij => ?_, fun b hb => needsName_iff.1 (hs.needs b hb)⟩
  · have hk : (s.registry.entries.map Prod.fst)[i]? = _ := congrArg (·[i]?) hs.keys
    rw [List.getElem?_map, List.getElem?_eq_getElem hi, List.getElem?_map, List.getElem?_range (hlen ▸ hi)] at hk
    exact Option.some.inj hk
  · rw [equals_of_needsName (hs.needs _ (List.getElem_mem hi)), beq_eq_false_iff_ne]
    intro he
    rcases Nat.lt_or_gt_of_ne hij with h | h
    · exact List.pairwise_iff_getElem.1 hs.apart i j hi hj h he
    · exact List.pairwise_iff_getElem.1 hs.apart j i hj hi h he.symm

theorem Kept.adds (hs : s.Kept) (line : String) : s.Adds line (s.inspect line).2 := by
  unfold Session.inspect
  split
  · exact .nothing rfl
  · rename_i v heap he
    dsimp only
    by_cases h : needsName (heap.kindOf v) = true ∧ s.registry.names v = false
    · exact .name he (needsName_iff.1 h.1) h.2 ((hs.evaluate he).1.entries_remember h.1 h.2).1
    · exact .nothing (by rw [remember_of_names h])

/-- **A session keeps its history.**  Whatever lines it was given, failing ones too, it has as many names as it counted,
numbered in their order, all for different values that need one; and the next line leaves them all, and adds one at most. -/
theorem history_after (config : SessionConfig) (lines : List String) (line : String) :
    History config (after { config := config } lines) ∧
      (after { config := config } lines).Adds line ((after { config := config } lines).inspect line).2 := by
  have hs := (kept_start config).after lines
  refine ⟨?_, hs.adds line⟩
  have hh := hs.history
  rwa [config_after] at hh

end Session

end Readback
