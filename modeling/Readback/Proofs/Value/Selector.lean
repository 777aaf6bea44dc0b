import Mathlib.Data.List.Induction
import Readback.Value.Registry
/-!
# The path that selects a value

A registry has its bindings in the order in which their paths were bound, and keeps no record of when a path came to its value.
So of all paths that are bound to a value, the one that has been bound the longest selects it, whatever it was bound to in the
meantime (`Registry.selectorFor_after`).  That is the path that was bound to the value first, unless a path that was bound
before it has been given the value since.
-/
namespace Readback

namespace Dictionary

variable {α : Type} {d : Dictionary α} {key k : String} {value x : α}

theorem mem_insert_iff :
    (k, x) ∈ (d.insert key value).entries ↔ (k = key ∧ x = value) ∨ (k ≠ key ∧ (k, x) ∈ d.entries) := by
  unfold insert
  split
  · rename_i hkey
    rw [List.mem_map]
    constructor
    · rintro ⟨e, he, hr⟩
      unfold replace at hr
      split at hr
      · cases hr
        exact .inl ⟨rfl, rfl⟩
      · subst hr
        exact .inr ⟨‹_›, he⟩
    · rintro (⟨rfl, rfl⟩ | ⟨hk, he⟩)
      · obtain ⟨e, he, rfl⟩ := List.mem_map.1 hkey
        exact ⟨e, he, if_pos rfl⟩
      · exact ⟨(k, x), he, if_neg hk⟩
  · rename_i hkey
    rw [List.mem_append, List.mem_singleton, Prod.mk.injEq]
    constructor
    · rintro (he | h)
      · exact .inr ⟨fun hk => hkey (hk ▸ List.mem_map_of_mem he), he⟩
      · exact .inl h
    · rintro (h | ⟨-, he⟩)
      · exact .inr h
      · exact .inl he

theorem mem_erase_iff : (k, x) ∈ (d.erase key).entries ↔ k ≠ key ∧ (k, x) ∈ d.entries := by
  unfold erase
  rw [List.mem_filter, and_comm]
  simp

end Dictionary

namespace Registry

/-- A change of one binding. -/
inductive Change where
  | bind (path : String) (value : Value)
  | unbind (path : String)

def Change.path : Change → String
  | .bind path _ => path
  | .unbind path => path

def apply (r : Registry) : Change → Registry
  | .bind path value => r.bind path value
  | .unbind path     => (r.unbind path).2

/-- The registry after changes, from one without bindings on. -/
def after (cs : List Change) : Registry := cs.foldl apply {}

/-! ## What a history says -/

/-- The change at a place binds the path to the value, and no later one unbinds it or binds it to another value. -/
def InForce (cs : List Change) (i : Nat) (path : String) (v : Value) : Prop :=
  cs[i]? = some (.bind path v) ∧ ∀ j c, i < j → cs[j]? = some c → c.path = path → c = .bind path v

/-- A binding of the path to the value is in force. -/
def Names (cs : List Change) (path : String) (v : Value) : Prop := ∃ i, InForce cs i path v

/-- The binding of the path to the value was made first, of those in force. -/
def First (cs : List Change) (path : String) (v : Value) : Prop :=
  ∃ i, InForce cs i path v ∧ ∀ j other, InForce cs j other v → i ≤ j

/-- The path has been bound ever since the change at a place, to whatever values. -/
def Held (cs : List Change) (i : Nat) (path : String) : Prop :=
  (∃ w, cs[i]? = some (.bind path w)) ∧ ∀ j, i < j → cs[j]? ≠ some (.unbind path)

/-- The path has been bound for longer than the other one. -/
def Older (cs : List Change) (path other : String) : Prop := ∃ i, Held cs i path ∧ ∀ j, Held cs j other → i < j

variable {cs : List Change} {c : Change} {i : Nat} {p q : String} {v : Value} {r : Registry}

theorem InForce.held (h : InForce cs i p v) : Held cs i p :=
  ⟨⟨v, h.1⟩, fun j hj hu => nomatch h.2 j _ hj hu rfl⟩

theorem Names.held (h : Names cs p v) : ∃ i, Held cs i p := h.imp fun _ hi => hi.held

theorem Older.asymm (h : Older cs p q) : ¬ Older cs q p := by
  rintro ⟨j, hj, hall⟩
  obtain ⟨i, hi, hall'⟩ := h
  exact Nat.lt_asymm (hall i hi) (hall' j hj)

theorem Older.irrefl (p : String) : ¬ Older cs p p := fun h => h.asymm h

/-! ## One change more -/

theorem getElem?_change {x : Change} : (cs ++ [c])[i]? = some x ↔ cs[i]? = some x ∨ (i = cs.length ∧ c = x) := by
  rcases Nat.lt_trichotomy i cs.length with hi | rfl | hi
  · rw [List.getElem?_append_left hi]
    simp [Nat.ne_of_lt hi]
  · simp
  · rw [List.getElem?_eq_none (by rw [List.length_append, List.length_singleton]; omega), List.getElem?_eq_none (by omega)]
    simp [Nat.ne_of_gt hi]

theorem lt_of_getElem? {x : Change} (h : cs[i]? = some x) : i < cs.length := (List.getElem?_eq_some_iff.1 h).1

theorem inForce_change :
    InForce (cs ++ [c]) i p v ↔ (i = cs.length ∧ c = .bind p v) ∨ (InForce cs i p v ∧ (c.path = p → c = .bind p v)) := by
  unfold InForce
  simp only [getElem?_change]
  constructor
  · rintro ⟨h | h, hall⟩
    · exact .inr ⟨⟨h, fun j d hj hd => hall j d hj (.inl hd)⟩, hall _ c (lt_of_getElem? h) (.inr ⟨rfl, rfl⟩)⟩
    · exact .inl h
  · rintro (⟨rfl, rfl⟩ | ⟨⟨h, hall⟩, hc⟩)
    · refine ⟨.inr ⟨rfl, rfl⟩, fun j d hj hd => ?_⟩
      rcases hd with hd | ⟨rfl, -⟩
      · exact absurd (lt_of_getElem? hd) (Nat.lt_asymm hj)
      · exact absurd hj (Nat.lt_irrefl _)
    · refine ⟨.inl h, fun j d hj hd => ?_⟩
      rcases hd with hd | ⟨-, rfl⟩
      · exact hall j d hj hd
      · exact hc

theorem names_change : Names (cs ++ [c]) p v ↔ c = .bind p v ∨ (Names cs p v ∧ c.path ≠ p) := by
  unfold Names
  simp only [inForce_change]
  constructor
  · rintro ⟨i, ⟨-, hc⟩ | ⟨hi, hc⟩⟩
    · exact .inl hc
    · by_cases hp : c.path = p
      · exact .inl (hc hp)
      · exact .inr ⟨⟨i, hi⟩, hp⟩
  · rintro (hc | ⟨⟨i, hi⟩, hp⟩)
    · exact ⟨_, .inl ⟨rfl, hc⟩⟩
    · exact ⟨i, .inr ⟨hi, fun h => absurd h hp⟩⟩

theorem held_change : Held (cs ++ [c]) i p ↔ (i = cs.length ∧ ∃ w, c = .bind p w) ∨ (Held cs i p ∧ c ≠ .unbind p) := by
  unfold Held
  simp only [ne_eq, getElem?_change, not_or, not_and]
  constructor
  · rintro ⟨⟨w, h | ⟨hi, hc⟩⟩, hall⟩
    · exact .inr ⟨⟨⟨w, h⟩, fun j hj => (hall j hj).1⟩, (hall _ (lt_of_getElem? h)).2 rfl⟩
    · exact .inl ⟨hi, w, hc⟩
  · rintro (⟨rfl, w, hc⟩ | ⟨⟨⟨w, h⟩, hall⟩, hc⟩)
    · exact ⟨⟨w, .inr ⟨rfl, hc⟩⟩, fun j hj =>
        ⟨fun h => Nat.lt_asymm hj (lt_of_getElem? h), fun h => absurd h (Nat.ne_of_gt hj)⟩⟩
    · exact ⟨⟨w, .inl h⟩, fun j hj => ⟨hall j hj, fun _ => hc⟩⟩

/-- A change of another path does not touch the age of a path. -/
theorem held_change_of_ne (hp : c.path ≠ p) : Held (cs ++ [c]) i p ↔ Held cs i p := by
  rw [held_change]
  refine ⟨?_, fun h => .inr ⟨h, fun hc => hp (hc ▸ rfl)⟩⟩
  rintro (⟨-, w, rfl⟩ | ⟨h, -⟩)
  · exact absurd rfl hp
  · exact h

/-- A path that is bound stays older than another one: binding it or the other one again does not change that. -/
theorem Older.change (h : Older cs p q) (hp : c ≠ .unbind p) : Older (cs ++ [c]) p q := by
  obtain ⟨i, hi, hall⟩ := h
  refine ⟨i, held_change.2 (.inr ⟨hi, hp⟩), fun j hj => ?_⟩
  rcases held_change.1 hj with ⟨rfl, -⟩ | ⟨hj, -⟩
  · obtain ⟨w, hw⟩ := hi.1
    exact lt_of_getElem? hw
  · exact hall j hj

/-- A path that is bound now for the first time is younger than those that are bound. -/
theorem older_bind (hp : ∃ i, Held cs i p) (hq : ¬ ∃ j, Held cs j q) : Older (cs ++ [.bind q v]) p q := by
  obtain ⟨i, hi⟩ := hp
  refine ⟨i, held_change.2 (.inr ⟨hi, nofun⟩), fun j hj => ?_⟩
  rcases held_change.1 hj with ⟨rfl, -⟩ | ⟨hj, -⟩
  · obtain ⟨w, hw⟩ := hi.1
    exact lt_of_getElem? hw
  · exact absurd ⟨j, hj⟩ hq

/-! ## What a registry keeps of its history -/

/-- The bindings are those in force, and their paths are in the order of their age. -/
structure Keeps (cs : List Change) (r : Registry) : Prop where
  names : ∀ p v, (p, v) ∈ r.entries ↔ Names cs p v
  held  : ∀ p, p ∈ r.bindings.keys ↔ ∃ i, Held cs i p
  order : r.bindings.keys.Pairwise (Older cs)

theorem keeps_empty : Keeps [] {} where
  names p v := iff_of_false List.not_mem_nil (by rintro ⟨i, h, -⟩; cases h)
  held p := iff_of_false List.not_mem_nil (by rintro ⟨i, ⟨w, h⟩, -⟩; cases h)
  order := .nil

theorem Keeps.bind (h : Keeps cs r) (p : String) (v : Value) : Keeps (cs ++ [.bind p v]) (r.bind p v) where
  names k x := by
    rw [names_change, ← h.names]
    show (k, x) ∈ (r.bindings.insert p v).entries ↔ _
    rw [Dictionary.mem_insert_iff, Change.bind.injEq, Change.path, eq_comm (a := p), eq_comm (a := v), ne_comm (a := p),
      and_comm (a := _ ∈ _)]
    rfl
  held k := by
    show k ∈ (r.bindings.insert p v).keys ↔ _
    simp only [held_change, exists_or, ne_eq, reduceCtorEq, not_false_eq_true, and_true, ← h.held, exists_and_right,
      exists_eq, true_and, Change.bind.injEq, exists_and_left, exists_eq']
    by_cases hp : p ∈ r.bindings.keys
    · rw [Dictionary.keys_insert_of_mem hp]
      exact ⟨.inr, fun hk => hk.elim (fun he => he ▸ hp) id⟩
    · rw [Dictionary.keys_insert_of_not_mem hp, List.mem_append, List.mem_singleton, or_comm, eq_comm]
  order := by
    have kept : r.bindings.keys.Pairwise (Older (cs ++ [.bind p v])) := h.order.imp fun ho => ho.change nofun
    show (r.bindings.insert p v).keys.Pairwise _
    by_cases hp : p ∈ r.bindings.keys
    · rwa [Dictionary.keys_insert_of_mem hp]
    · rw [Dictionary.keys_insert_of_not_mem hp, List.pairwise_append]
      refine ⟨kept, List.pairwise_singleton _ _, fun k hk q hq => ?_⟩
      rw [List.mem_singleton.1 hq]
      exact older_bind ((h.held k).1 hk) fun hq => hp ((h.held p).2 hq)

theorem Keeps.unbind (h : Keeps cs r) (p : String) : Keeps (cs ++ [.unbind p]) (r.unbind p).2 where
  names k x := by
    rw [names_change, ← h.names]
    show (k, x) ∈ (r.bindings.erase p).entries ↔ _
    rw [Dictionary.mem_erase_iff, Change.path, and_comm, ne_comm]
    simp only [reduceCtorEq, false_or]
    rfl
  held k := by
    show k ∈ (r.bindings.erase p).keys ↔ _
    rw [Dictionary.keys_erase, List.mem_filter, h.held, Bool.not_eq_true', beq_eq_false_iff_ne, ne_comm]
    simp only [held_change, reduceCtorEq, exists_false, and_false, false_or, exists_and_right, ne_eq, Change.unbind.injEq]
  order := by
    show (r.bindings.erase p).keys.Pairwise _
    rw [Dictionary.keys_erase]
    refine (h.order.filter _).imp_of_mem fun {k q} hk _ ho => ho.change ?_
    rintro ⟨⟩
    simp at hk

/-- One change more keeps the history. -/
theorem Keeps.apply (h : Keeps cs r) : ∀ c, Keeps (cs ++ [c]) (r.apply c)
  | .bind p v => h.bind p v
  | .unbind p => h.unbind p

/-- **A registry keeps its history**, whatever the changes were. -/
theorem keeps_after (cs : List Change) : Keeps cs (after cs) := by
  induction cs using List.reverseRecOn with
  | nil => exact keeps_empty
  | append_singleton cs c ih =>
    rw [after, List.foldl_append]
    exact ih.apply c

/-! ## Selectors -/

/-- The first entry with a value is of the oldest of the paths that are bound to it. -/
theorem Keeps.older_of_find? (h : Keeps cs r) (hf : r.entries.find? (·.2 == v) = some (p, v)) (hq : Names cs q v)
    (hne : q ≠ p) : Older cs p q := by
  obtain ⟨-, as, bs, hsplit, hbefore⟩ := List.find?_eq_some_iff_append.1 hf
  have hmem := (h.names q v).2 hq
  have hbehind : (q, v) ∈ bs := by
    rw [hsplit, List.mem_append, List.mem_cons, Prod.mk.injEq] at hmem
    rcases hmem with hmem | ⟨he, -⟩ | hmem
    · simpa using hbefore _ hmem
    · exact absurd he hne
    · exact hmem
  have horder : (r.entries.map Prod.fst).Pairwise (Older cs) := h.order
  rw [hsplit, List.map_append, List.map_cons, List.pairwise_append, List.pairwise_cons] at horder
  exact horder.2.1.1 q (List.mem_map_of_mem hbehind)

theorem selectorFor_eq_some (hv : v.hasIdentity = true) :
    r.selectorFor v = some p ↔ r.entries.find? (·.2 == v) = some (p, v) := by
  unfold selectorFor
  rw [if_pos hv, Option.map_eq_some_iff]
  constructor
  · rintro ⟨⟨p, w⟩, hf, rfl⟩
    obtain rfl : w = v := by simpa using List.find?_some hf
    exact hf
  · exact fun hf => ⟨_, hf, rfl⟩

/-- **No path selects a value** just when none is bound to it. -/
theorem selectorFor_eq_none (hv : v.hasIdentity = true) : (after cs).selectorFor v = none ↔ ∀ p, ¬ Names cs p v := by
  unfold selectorFor
  rw [if_pos hv, Option.map_eq_none_iff, List.find?_eq_none]
  simp only [← (keeps_after cs).names, beq_iff_eq]
  exact ⟨fun h p hp => h (p, v) hp rfl, fun h e he hev => h e.1 (hev ▸ he)⟩

/-- **The path that selects a value** is the one that has been bound the longest, of those that are bound to the value. -/
theorem selectorFor_iff (hv : v.hasIdentity = true) :
    (after cs).selectorFor v = some p ↔ Names cs p v ∧ ∀ q, Names cs q v → ¬ Older cs q p := by
  have law : ∀ {p}, (after cs).selectorFor v = some p → Names cs p v ∧ ∀ q, Names cs q v → q ≠ p → Older cs p q := by
    intro p h
    rw [selectorFor_eq_some hv] at h
    exact ⟨((keeps_after cs).names p v).1 (List.mem_of_find?_eq_some h), fun q hq hne =>
      (keeps_after cs).older_of_find? h hq hne⟩
  constructor
  · intro h
    obtain ⟨hp, hall⟩ := law h
    refine ⟨hp, fun q hq ho => ?_⟩
    by_cases hne : q = p
    · exact Older.irrefl p (hne ▸ ho)
    · exact ho.asymm (hall q hq hne)
  · rintro ⟨hp, hall⟩
    cases hs : (after cs).selectorFor v with
    | none => exact absurd hp ((selectorFor_eq_none hv).1 hs p)
    | some q =>
      obtain ⟨hq, hall'⟩ := law hs
      by_cases hne : p = q
      · rw [hne]
      · exact absurd (hall' p hp hne) (hall q hq)

/-- One change of another path leaves the selector as it is, unless it binds the value to a path that is older. -/
theorem selectorFor_change (hv : v.hasIdentity = true) (hs : (after cs).selectorFor v = some p) (hp : c.path ≠ p) :
    (after (cs ++ [c])).selectorFor v = some p ↔ ∀ q, c = .bind q v → ¬ Older cs q p := by
  obtain ⟨hn, hall⟩ := (selectorFor_iff hv).1 hs
  have hn' : Names (cs ++ [c]) p v := names_change.2 (.inr ⟨hn, hp⟩)
  have holder : ∀ {q}, Older (cs ++ [c]) q p → Older cs q p := by
    rintro q ⟨i, hi, hyoung⟩
    have hyoung' : ∀ j, Held cs j p → i < j := fun j hj => hyoung j ((held_change_of_ne hp).2 hj)
    refine ⟨i, (held_change.1 hi).elim (fun ⟨hi, _⟩ => ?_) And.left, hyoung'⟩
    obtain ⟨j, hj⟩ := hn.held
    obtain ⟨w, hw⟩ := hj.1
    exact absurd (lt_of_getElem? hw) (Nat.lt_asymm (hi ▸ hyoung' j hj))
  rw [selectorFor_iff hv]
  constructor
  · rintro ⟨-, hall'⟩ q rfl ho
    exact hall' q (names_change.2 (.inl rfl)) (ho.change nofun)
  · refine fun hc => ⟨hn', fun q hq ho => ?_⟩
    rcases names_change.1 hq with rfl | ⟨hq, -⟩
    · exact hc q rfl (holder ho)
    · exact hall q hq (holder ho)

/-- **Changes of other paths leave the selector as it is**, as long as none binds the value to a path that is older then. -/
theorem selectorFor_changes (hv : v.hasIdentity = true) {later : List Change} (hs : (after cs).selectorFor v = some p)
    (hp : ∀ c ∈ later, c.path ≠ p)
    (hold : ∀ q front behind, later = front ++ .bind q v :: behind → ¬ Older (cs ++ front) q p) :
    (after (cs ++ later)).selectorFor v = some p := by
  induction later generalizing cs with
  | nil => rwa [List.append_nil]
  | cons c later ih =>
    rw [List.append_cons]
    refine ih ?_ (fun d hd => hp d (List.mem_cons_of_mem _ hd)) fun q front behind hl => ?_
    · refine (selectorFor_change hv hs (hp c List.mem_cons_self)).2 fun q hc => ?_
      rw [← List.append_nil cs]
      exact hold q [] later (by rw [hc, List.nil_append])
    · rw [List.append_assoc]
      exact hold q (c :: front) behind (by rw [hl, List.cons_append])

theorem Names.exists_first (h : Names cs p v) : ∃ q, First cs q v := by
  obtain ⟨i, hi⟩ := h
  induction i using Nat.strongRecOn generalizing p with
  | ind i ih =>
    by_cases hlt : ∃ j < i, ∃ q, InForce cs j q v
    · obtain ⟨j, hj, q, hq⟩ := hlt
      exact ih j hj hq
    · exact ⟨p, i, hi, fun j q hq => Nat.le_of_not_lt fun hj => hlt ⟨j, hj, q, hq⟩⟩

/-- The paths that are bound to the value were bound to nothing else since they were bound. -/
def Steady (cs : List Change) (v : Value) : Prop := ∀ p j, Names cs p v → Held cs j p → ∃ i ≤ j, InForce cs i p v

/-- A path that the value was bound to first is the oldest, when none of them came to the value later than it was bound. -/
theorem First.not_older (h : First cs p v) (hs : Steady cs v) (hq : Names cs q v) : ¬ Older cs q p := by
  rintro ⟨j, hj, hyoung⟩
  obtain ⟨i, hi, hfirst⟩ := h
  obtain ⟨k, hk, hk'⟩ := hs q j hq hj
  have := hyoung i hi.held
  have := hfirst k q hk'
  omega

/-- **Which path selects a symbol or an object.**  After any changes it is the one that has been bound the longest, of the paths
that are bound to the value then, and there is none if no path is.  Where the paths that are bound to the value were bound to
nothing else since they were bound, that is the path that the value was bound to first; and in any case that path selects the
value just when none of the others has been bound for longer.  Changes of other paths leave it as it is, as long as none binds
the value to a path that has been bound for longer then. -/
theorem selectorFor_after {cs : List Change} {v : Value} (hv : v.hasIdentity = true) :
    ((after cs).selectorFor v = none ↔ ∀ p, ¬ Names cs p v) ∧
    (∀ p, (after cs).selectorFor v = some p ↔ Names cs p v ∧ ∀ q, Names cs q v → ¬ Older cs q p) ∧
    (Steady cs v → ∀ p, (after cs).selectorFor v = some p ↔ First cs p v) ∧
    (∀ p, First cs p v → ((after cs).selectorFor v = some p ↔ ∀ q, Names cs q v → ¬ Older cs q p)) ∧
    ∀ p later, (after cs).selectorFor v = some p → (∀ c ∈ later, c.path ≠ p) →
      (∀ q front behind, later = front ++ .bind q v :: behind → ¬ Older (cs ++ front) q p) →
      (after (cs ++ later)).selectorFor v = some p := by
  have first : ∀ p, First cs p v → Names cs p v := fun p h => h.imp fun _ hi => hi.1
  refine ⟨selectorFor_eq_none hv, fun p => selectorFor_iff hv, fun hs p => ⟨fun h => ?_, fun h => ?_⟩, fun p h => ?_,
    fun p later h => selectorFor_changes hv h⟩
  · obtain ⟨q, hq⟩ := ((selectorFor_iff hv).1 h).1.exists_first
    have hsel := (selectorFor_iff hv).2 ⟨first q hq, fun k hk => hq.not_older hs hk⟩
    exact Option.some.inj (h.symm.trans hsel) ▸ hq
  · exact (selectorFor_iff hv).2 ⟨first p h, fun k hk => h.not_older hs hk⟩
  · exact (selectorFor_iff hv).trans (and_iff_right (first p h))

/-- Two paths are bound to an object, the first one is unbound, and a third one is bound to the object. -/
theorem selectorFor_after_unbind : (Value.object ⟨0⟩).hasIdentity = true ∧
    (after [.bind "a" (.object ⟨0⟩), .bind "b" (.object ⟨0⟩), .unbind "a"]).selectorFor (.object ⟨0⟩) = some "b" ∧
    (after ([.bind "a" (.object ⟨0⟩), .bind "b" (.object ⟨0⟩), .unbind "a"] ++ [.bind "a" (.object ⟨0⟩)])).selectorFor
      (.object ⟨0⟩) = some "b" := by
  have selects : (after [.bind "a" (.object ⟨0⟩), .bind "b" (.object ⟨0⟩), .unbind "a"]).selectorFor (.object ⟨0⟩) =
      some "b" := by decide
  refine ⟨rfl, selects, ?_⟩
  refine (selectorFor_after (v := .object ⟨0⟩) rfl).2.2.2.2 "b" _ selects (by simp [Change.path]) fun q front behind hl => ?_
  -- behind the other changes the path is bound for the first time
  obtain ⟨rfl, hq⟩ : front = [] ∧ Change.bind "a" (.object ⟨0⟩) = .bind q (.object ⟨0⟩) := by
    cases front with
    | nil => exact ⟨rfl, (List.cons.inj hl).1⟩
    | cons c front => simp at hl
  cases hq
  rintro ⟨i, hi, -⟩
  have hk := ((keeps_after _).held "a").2 ⟨i, hi⟩
  exact absurd hk (by decide)

/-- **The path that was bound to a value first does not select it** when a path that was bound before, to something else, is
given the value behind it; and so the value changes its selector. -/
theorem selectorFor_not_first :
    (after [.bind "a" .null, .bind "b" (.object ⟨0⟩)]).selectorFor (.object ⟨0⟩) = some "b" ∧
    First [.bind "a" .null, .bind "b" (.object ⟨0⟩), .bind "a" (.object ⟨0⟩)] "b" (.object ⟨0⟩) ∧
    (after [.bind "a" .null, .bind "b" (.object ⟨0⟩), .bind "a" (.object ⟨0⟩)]).selectorFor (.object ⟨0⟩) = some "a" := by
  refine ⟨by decide, ⟨1, ⟨rfl, ?_⟩, ?_⟩, by decide⟩
  · rintro (_ | _ | _ | j) c hj hc hp
    · omega
    · omega
    · cases hc
      exact absurd hp (by decide)
    · cases hc
  · rintro (_ | j) q ⟨hc, -⟩
    · cases hc
    · omega

end Registry

end Readback
