import TraceGraph.Graph

/-!
# The indices of a graph

A node gets the next free index when it is added and keeps it, whatever else is changed
about it. Two properties say so.

> `Numbered`: the node at place `i` carries the index `i`, counted in 32 bits.

> `Indexed`: the number of its index is its place.

The first one is kept by everything that happens to a graph (`Numbered.append`,
`Numbered.modify`), in graphs of any size. The second one is what one would like to have,
since with it a node is found at its index; it holds of a numbered graph as long as there
are enough indices for the nodes. So invariants are proved in the first form and used in the
second.

The last two lemmas say what can be found in a changed graph: the old nodes and their
changed forms (`mem_modify`), and after an accepted edge the graph with its two ends changed
(`eq_of_addEdge`).
-/

namespace TraceGraph.Graph

variable {g : Graph}

/-- Whether every node carries the index that was the next free one when it was added. In a graph of
more nodes than there are indices they start again at zero. -/
def Numbered (g : Graph) : Prop := ∀ i (h : i < g.nodes.length), g.nodes[i].index = .ofNat i

/-- The indices of a graph are no more than there are. -/
theorem Indexed.size_le (h : g.Indexed) : g.size ≤ UInt32.size := by
  refine Nat.le_of_not_lt ?_
  intro hlt
  have hindex := h UInt32.size hlt
  have hbound := g.nodes[UInt32.size].index.toNat_lt
  rw [hindex] at hbound
  exact absurd hbound (Nat.lt_irrefl _)

/-- The number of nodes can be written in the metadata. -/
theorem Indexed.size_lt (h : g.Indexed) : g.size < UInt64.size :=
  Nat.lt_of_le_of_lt h.size_le (by decide)

theorem Indexed.numbered (h : g.Indexed) : g.Numbered := by
  intro i hi
  rw [← UInt32.ofNat_toNat (x := g.nodes[i].index), h i hi]

/-- A node that carries the next free index may be added. -/
theorem Numbered.append (h : g.Numbered) {node : Node} (hnode : node.index = g.nextIndex) :
    Numbered ⟨g.nodes ++ [node]⟩ := by
  intro i hi
  show (g.nodes ++ [node])[i].index = _
  rw [List.length_append, List.length_singleton] at hi
  -- the place of the new node is the number of the old ones
  by_cases hlast : i < g.nodes.length
  · rw [List.getElem_append_left hlast]
    exact h i hlast
  · obtain rfl : i = g.nodes.length := by omega
    rw [List.getElem_concat_length rfl]
    exact hnode

/-- A change that keeps the index of its node keeps the numbering. -/
theorem Numbered.modify (h : g.Numbered) (i : UInt32) {f : Node → Node}
    (hf : ∀ node, (f node).index = node.index) : (g.modify i f).Numbered := by
  intro j hj
  change j < (g.nodes.modify i.toNat f).length at hj
  show (g.nodes.modify i.toNat f)[j].index = _
  have hj' : j < g.nodes.length := by
    rwa [List.length_modify] at hj
  rw [List.getElem_modify]
  split
  next => exact (hf _).trans (h j hj')
  next => exact h j hj'

/-- A node of the changed graph was there before, or is the changed form of one that was. -/
theorem mem_modify {i : UInt32} {f : Node → Node} {node : Node}
    (h : node ∈ (g.modify i f).nodes) : node ∈ g.nodes ∨ ∃ m ∈ g.nodes, node = f m := by
  obtain ⟨j, hj⟩ := List.mem_iff_getElem?.1 h
  unfold Graph.modify at hj
  rw [List.getElem?_modify] at hj
  obtain ⟨m, hm, hnode⟩ := Option.map_eq_some_iff.1 hj
  have hmem := List.mem_of_getElem? hm
  subst hnode
  split
  next => exact .inr ⟨m, hmem, rfl⟩
  next => exact .inl hmem

/-- An accepted edge is a change of its source and one of its target. -/
theorem eq_of_addEdge {source target : UInt32} {added : Bool} {g' : Graph}
    (h : g.addEdge source target = .ok (added, g')) :
    g' = (g.modify source fun node => (node.addOutgoing target).2).modify target fun node =>
      (node.addIncoming source).2 := by
  unfold Graph.addEdge at h
  by_cases heq : source = target
  · rw [if_pos heq] at h
    cases h
  · rw [if_neg heq] at h
    split at h
    next => cases h
    next => cases h
    next =>
      cases h
      rfl

end TraceGraph.Graph
