import TraceGraph.Ascending

/-!
# Sets of node indices

The neighbours of a node are a finite set of indices. It is kept as a strictly ascending
list, which the structure says of its list, so two sets with the same members are equal
(`ext`) and the order in which a set was built is lost. A set is written to a file in this
order.

The operations are those on ascending lists, and what is said of them there is carried over
to membership in the set: `mem_insert`, `mem_ofList`. The instances make membership
decidable, so that a graph can be examined by evaluation.
-/

namespace TraceGraph

/-- A finite set of node indices. -/
structure IndexSet where
  /-- The members in ascending order. -/
  toList : List UInt32
  ascending : toList.Pairwise (· < ·)
deriving DecidableEq

namespace IndexSet

instance : Ascending.StrictOrder UInt32 where
  irrefl := UInt32.lt_irrefl
  trans := UInt32.lt_trans
  lt_of_not_lt := fun h hne => (UInt32.lt_or_lt_of_ne hne).resolve_left h

instance : Membership UInt32 IndexSet where
  mem s i := i ∈ s.toList

instance (i : UInt32) (s : IndexSet) : Decidable (i ∈ s) :=
  inferInstanceAs (Decidable (i ∈ s.toList))

/-- The set without members. -/
def empty : IndexSet := ⟨[], List.Pairwise.nil⟩

instance : Inhabited IndexSet := ⟨empty⟩

/-- The number of members. -/
def size (s : IndexSet) : Nat := s.toList.length

/-- The set with one more member. -/
def insert (i : UInt32) (s : IndexSet) : IndexSet :=
  ⟨Ascending.insert i s.toList, Ascending.pairwise_insert s.ascending⟩

/-- The set of the members of a list. -/
def ofList (is : List UInt32) : IndexSet := ⟨Ascending.ofList is, Ascending.pairwise_ofList is⟩

@[simp] theorem not_mem_empty (i : UInt32) : i ∉ empty := List.not_mem_nil

@[simp] theorem mem_toList {i : UInt32} {s : IndexSet} : i ∈ s.toList ↔ i ∈ s := Iff.rfl

/-- An insertion adds its index and nothing else. -/
@[simp] theorem mem_insert {i k : UInt32} {s : IndexSet} : k ∈ s.insert i ↔ k = i ∨ k ∈ s :=
  Ascending.mem_insert

@[simp] theorem mem_ofList {i : UInt32} {is : List UInt32} : i ∈ ofList is ↔ i ∈ is :=
  Ascending.mem_ofList

/-- A set is determined by its members. -/
theorem ext {s t : IndexSet} (h : ∀ i, i ∈ s ↔ i ∈ t) : s = t := by
  obtain ⟨is, his⟩ := s
  obtain ⟨js, hjs⟩ := t
  have : is = js := Ascending.eq_of_mem_iff his hjs h
  subst this
  rfl

/-- No member is listed twice. -/
theorem nodup_toList (s : IndexSet) : s.toList.Nodup := by
  refine s.ascending.imp ?_
  intro i j hlt heq
  exact UInt32.lt_irrefl i (heq.symm ▸ hlt)

end IndexSet

end TraceGraph
