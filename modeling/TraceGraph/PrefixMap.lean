import TraceGraph.FiniteMap

/-!
# Maps with lists as keys

A map whose keys are lists, kept as a tree: below each first element are the keys that begin
with it. A look-up follows its key once and so does not depend on how many other keys there
are; that is what makes it fit for a tree of files, whose places are lists of names.

The tree is a nested inductive type, with the branches of a node in a list. What is below a
first element is found by the functions on entries that finite maps have too (`branch`), so
no new laws about lists are needed: a change below one first element is not seen below
another (`branch_put`).

Setting and erasing are one operation, `put`, with a value or none. Its law, `get?_put`, is
by induction on the key that is changed, for all keys that are looked up; `get?_set` and
`get?_erase` are its two cases. A branch that has become empty is not removed, as nothing
depends on it.
-/

namespace TraceGraph

/-- A finite map from lists over `κ` to `α`: the value of the empty list, and one map for each first
element. -/
inductive PrefixMap (κ α : Type) where
  | node (value : Option α) (branches : List (κ × PrefixMap κ α))

namespace PrefixMap

variable {κ α : Type}

/-- The map without keys. -/
def empty : PrefixMap κ α := .node none []

/-- The value of the empty key. -/
def value : PrefixMap κ α → Option α
  | .node value _ => value

/-- The maps below the first elements, in the order of their first use. -/
def branches : PrefixMap κ α → List (κ × PrefixMap κ α)
  | .node _ branches => branches

mutual

/-- All keys with their values. A key stands before those that it begins. -/
def entries : PrefixMap κ α → List (List κ × α)
  | .node value branches => value.toList.map (fun v => ([], v)) ++ entriesOf branches

/-- All keys of some branches with their values. -/
def entriesOf : List (κ × PrefixMap κ α) → List (List κ × α)
  | [] => []
  | (k, map) :: branches => map.entries.map (fun (key, v) => (k :: key, v)) ++ entriesOf branches

end

variable [DecidableEq κ]

/-- The map of the keys that begin with an element, without that element. -/
def branch (map : PrefixMap κ α) (k : κ) : PrefixMap κ α :=
  (FiniteMap.find? k map.branches).getD empty

/-- The map of the keys that begin with a key, without that beginning. -/
def under (map : PrefixMap κ α) : List κ → PrefixMap κ α
  | [] => map
  | k :: key => (map.branch k).under key

/-- The value of a key. -/
def get? (map : PrefixMap κ α) (key : List κ) : Option α := (map.under key).value

/-- The map in which a key has the given value, or none. -/
def put (map : PrefixMap κ α) : List κ → Option α → PrefixMap κ α
  | [], v => .node v map.branches
  | k :: key, v => .node map.value (FiniteMap.store k ((map.branch k).put key v) map.branches)

/-- The map with one value replaced or added. -/
def set (map : PrefixMap κ α) (key : List κ) (v : α) : PrefixMap κ α := map.put key (some v)

/-- The map without one of its keys. -/
def erase (map : PrefixMap κ α) (key : List κ) : PrefixMap κ α := map.put key none

/-- A change below a first element is seen there and nowhere else. -/
theorem branch_put (map : PrefixMap κ α) (k k' : κ) (key : List κ) (v : Option α) :
    (map.put (k :: key) v).branch k' =
      if k' = k then (map.branch k).put key v else map.branch k' := by
  simp only [put, branch, branches, FiniteMap.find?_store]
  split <;> rfl

/-- A change is seen at its own key and no other. -/
theorem get?_put (map : PrefixMap κ α) (key other : List κ) (v : Option α) :
    (map.put key v).get? other = if other = key then v else map.get? other := by
  induction key generalizing map other with
  | nil =>
    cases other with
    | nil => simp [put, get?, under, value]
    | cons k other => rfl
  | cons k key ih =>
    cases other with
    | nil => rfl
    | cons k' other =>
      have h := ih (map.branch k) other
      simp only [get?, under, branch_put, List.cons.injEq] at h ⊢
      -- the keys go the same way or part here
      by_cases hk : k' = k
      · subst hk; simpa using h
      · simp [hk]

@[simp] theorem get?_empty (key : List κ) : (empty : PrefixMap κ α).get? key = none := by
  induction key with
  | nil => rfl
  | cons k key ih => exact ih

/-- A write changes the value of its own key and no other. -/
theorem get?_set (map : PrefixMap κ α) (key other : List κ) (v : α) :
    (map.set key v).get? other = if other = key then some v else map.get? other :=
  get?_put ..

/-- An erasure takes the value of its own key and no other. -/
theorem get?_erase (map : PrefixMap κ α) (key other : List κ) :
    (map.erase key).get? other = if other = key then none else map.get? other :=
  get?_put ..

end PrefixMap

end TraceGraph
