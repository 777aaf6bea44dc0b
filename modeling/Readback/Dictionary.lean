/-!
# Dictionaries

Keys with values, in the order in which the keys came.  A key that is given a new value stays where it is; a key that was
erased and comes again is the last.  No key is there twice.
-/
namespace Readback

structure Dictionary (α : Type) where
  entries : List (String × α) := []
  nodup   : (entries.map Prod.fst).Nodup := by exact List.nodup_nil

namespace Dictionary

variable {α : Type}

instance : Inhabited (Dictionary α) := ⟨{}⟩

def keys (d : Dictionary α) : List String := d.entries.map Prod.fst

def size (d : Dictionary α) : Nat := d.entries.length

def isEmpty (d : Dictionary α) : Bool := d.entries.isEmpty

def find? (d : Dictionary α) (key : String) : Option α := (d.entries.find? (·.1 == key)).map (·.2)

/-- The entry with its value replaced, when it is the one under the key. -/
def replace (key : String) (value : α) (e : String × α) : String × α := if e.1 = key then (key, value) else e

theorem replace_fst (key : String) (value : α) (e : String × α) : (replace key value e).1 = e.1 := by
  unfold replace
  split
  · rename_i h; exact h.symm
  · rfl

theorem keys_replace (key : String) (value : α) (es : List (String × α)) :
    (es.map (replace key value)).map Prod.fst = es.map Prod.fst := by
  rw [List.map_map]
  exact List.map_congr_left (fun e _ => replace_fst key value e)

/-- The dictionary with a value under a key. -/
def insert (d : Dictionary α) (key : String) (value : α) : Dictionary α :=
  if h : key ∈ d.keys then
    ⟨d.entries.map (replace key value), by rw [keys_replace]; exact d.nodup⟩
  else
    ⟨d.entries ++ [(key, value)], by
      rw [List.map_append, List.nodup_append]
      refine ⟨d.nodup, by simp, ?_⟩
      intro a ha b hb
      simp only [List.map_cons, List.map_nil, List.mem_singleton] at hb
      subst hb
      intro hab
      exact h (hab ▸ ha)⟩

/-- The dictionary without a key. -/
def erase (d : Dictionary α) (key : String) : Dictionary α :=
  ⟨d.entries.filter (fun e => !(e.1 == key)), d.nodup.sublist (List.filter_sublist.map _)⟩

def insertAll (d : Dictionary α) (es : List (String × α)) : Dictionary α :=
  es.foldl (fun d e => d.insert e.1 e.2) d

theorem keys_insert_of_mem {d : Dictionary α} {key : String} {value : α} (h : key ∈ d.keys) :
    (d.insert key value).keys = d.keys := by
  unfold insert
  rw [dif_pos h]
  exact keys_replace key value d.entries

theorem keys_insert_of_not_mem {d : Dictionary α} {key : String} {value : α} (h : key ∉ d.keys) :
    (d.insert key value).keys = d.keys ++ [key] := by
  unfold insert
  rw [dif_neg h]
  simp [keys]

theorem keys_erase (d : Dictionary α) (key : String) : (d.erase key).keys = d.keys.filter (fun k => !(k == key)) := by
  simp only [erase, keys, List.filter_map]
  rfl

end Dictionary

end Readback
