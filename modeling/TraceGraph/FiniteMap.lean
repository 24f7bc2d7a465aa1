/-!
# Finite maps

A finite map is a list of entries, no two of which have the same key. The keys stand in the
order of their first use: a value that is set again stays at its place, and a new one comes
last.

That no key stands twice is part of the structure, and each operation proves it for its
result (`nodup_keys_store`). So `size` counts keys, and the entries of a map can be compared
with a set.

What an operation does is said by what it does to all values: `get?_set` and `get?_erase`.
Each of them is the law of a function on lists, `find?_store` and `find?_filter`, which need
no distinct keys and are by induction on the list; maps with lists as keys use them for
their branches too.
-/

namespace TraceGraph

/-- A finite map from `κ` to `α`. -/
structure FiniteMap (κ α : Type) where
  entries : List (κ × α)
  nodup_keys : (entries.map Prod.fst).Nodup

namespace FiniteMap

variable {κ α : Type} [DecidableEq κ]

/-- The value of the first entry for a key. -/
def find? (key : κ) : List (κ × α) → Option α
  | [] => none
  | (k, value) :: entries => if k = key then some value else find? key entries

/-- The entries with one value replaced, or added at the end. -/
def store (key : κ) (value : α) : List (κ × α) → List (κ × α)
  | [] => [(key, value)]
  | (k, old) :: entries =>
    if k = key then (k, value) :: entries else (k, old) :: store key value entries

/-- A store makes sure of its key and of no other. -/
theorem mem_keys_store {key k : κ} {value : α} {entries : List (κ × α)} :
    k ∈ (store key value entries).map Prod.fst ↔ k = key ∨ k ∈ entries.map Prod.fst := by
  induction entries with
  | nil => simp [store]
  | cons entry entries ih =>
    obtain ⟨k', v⟩ := entry
    rw [store]
    split
    next h => subst h; simp
    next => simp only [List.map_cons, List.mem_cons, ih]; grind

/-- No key stands twice after a store if none did before. -/
theorem nodup_keys_store {key : κ} {value : α} {entries : List (κ × α)}
    (h : (entries.map Prod.fst).Nodup) : ((store key value entries).map Prod.fst).Nodup := by
  induction entries with
  | nil => simp [store]
  | cons entry entries ih =>
    obtain ⟨k, v⟩ := entry
    simp only [List.map_cons, List.nodup_cons] at h
    rw [store]
    split
    next => simpa using h
    next hk =>
      simp only [List.map_cons, List.nodup_cons]
      refine ⟨fun hmem => ?_, ih h.2⟩
      rcases mem_keys_store.1 hmem with rfl | hmem
      · exact hk rfl
      · exact h.1 hmem

/-- The map without keys. -/
def empty : FiniteMap κ α := ⟨[], List.nodup_nil⟩

/-- The value of a key. -/
def get? (map : FiniteMap κ α) (key : κ) : Option α := find? key map.entries

/-- The map with one value replaced or added. -/
def set (map : FiniteMap κ α) (key : κ) (value : α) : FiniteMap κ α :=
  ⟨store key value map.entries, nodup_keys_store map.nodup_keys⟩

/-- The map without one of its keys. -/
def erase (map : FiniteMap κ α) (key : κ) : FiniteMap κ α :=
  ⟨map.entries.filter fun entry => entry.1 ≠ key,
    (List.filter_sublist.map Prod.fst).nodup map.nodup_keys⟩

/-- The number of keys. -/
def size (map : FiniteMap κ α) : Nat := map.entries.length

/-- A list in which a value is stored has it at its key, and elsewhere what it had. -/
theorem find?_store (key k : κ) (value : α) (entries : List (κ × α)) :
    find? k (store key value entries) = if k = key then some value else find? k entries := by
  induction entries with
  | nil => simp only [store, find?, eq_comm]
  | cons entry entries ih =>
    obtain ⟨k', v⟩ := entry
    rw [store]
    split
    next h => subst h; simp only [find?, eq_comm]; split <;> rfl
    next h =>
      simp only [find?, ih]
      split
      next hk => subst hk; rw [if_neg h]
      next => rfl

/-- A list from which a key is taken has nothing at it, and elsewhere what it had. -/
theorem find?_filter (key k : κ) (entries : List (κ × α)) :
    find? k (entries.filter fun entry => entry.1 ≠ key) =
      if k = key then none else find? k entries := by
  induction entries with
  | nil => simp [find?]
  | cons entry entries ih =>
    obtain ⟨k', v⟩ := entry
    -- whether the first entry is the one that is taken
    by_cases h : k' = key
    · subst h
      simp only [ne_eq, decide_not, decide_true, Bool.not_true, List.filter_cons, find?] at ih ⊢
      rw [if_neg Bool.false_ne_true, ih]
      split
      next => rfl
      next hk => rw [if_neg (Ne.symm hk)]
    · have hkeep : decide (k' ≠ key) = true := decide_eq_true h
      rw [List.filter_cons, if_pos hkeep, find?, ih, find?]
      split
      next hk => subst hk; rw [if_neg h]
      next => rfl

@[simp] theorem get?_empty (key : κ) : (empty : FiniteMap κ α).get? key = none := rfl

/-- A write changes the value of its own key and no other. -/
theorem get?_set (map : FiniteMap κ α) (key k : κ) (value : α) :
    (map.set key value).get? k = if k = key then some value else map.get? k :=
  find?_store ..

/-- An erasure takes the value of its own key and no other. -/
theorem get?_erase (map : FiniteMap κ α) (key k : κ) :
    (map.erase key).get? k = if k = key then none else map.get? k :=
  find?_filter ..

end FiniteMap

end TraceGraph
