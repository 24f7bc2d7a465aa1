import Mathlib.Algebra.GroupWithZero.Nat
import Mathlib.Data.Finset.Card
import Mathlib.Data.List.Nodup
import TraceGraph.Graph.Diagnosis
import TraceGraph.Proofs.Graph.Numbered

/-!
# What a diagnosis finds

A diagnosis compares what the two ends of an edge say. In a graph whose nodes stand at the
places of their indices, a node is found at an index exactly if it carries that index
(`Indexed.get?_eq_some_iff`). So the edges that are recorded at their sources, and those
that are recorded at their targets, are two sets, and everything else is said in terms of
these: `hasOutgoing` asks for a member of the first one and `hasIncoming` for one of the
second.

> `Indexed.mem_unmirroredEdges_iff`: the diagnosis lists what is in one of the sets and not
> in the
> other.

> `Indexed.mem_selfLoops_iff`: it lists the nodes that are their own neighbours on either
> side.

> `Indexed.edgeCount_eq_card`: the number of edges is the size of the first set, and
> `Indexed.sum_incoming_eq_card` says the same of the second one.

For the counts the edges are collected from the nodes, once as `outgoingEdges` and once as
`incomingEdges`. Each edge is collected once, since it names the node that it was collected
from and no two nodes carry the same index (`Indexed.nodup_flatMap`).
-/

namespace TraceGraph

namespace Graph

variable {g : Graph} {node : Node} {i j : UInt32} {e : Edge}

/-- As long as there are enough indices, a numbered graph has its nodes at their places. -/
theorem Numbered.indexed (h : g.Numbered) (hsize : g.size ≤ UInt32.size) : g.Indexed := by
  intro i hi
  rw [h i hi]
  exact UInt32.toNat_ofNat_of_lt' (Nat.lt_of_lt_of_le hi hsize)

/-- A node is found at the index that it carries, and nowhere else. -/
theorem Indexed.get?_eq_some_iff (h : g.Indexed) :
    g.get? i = some node ↔ node ∈ g.nodes ∧ node.index = i := by
  unfold Graph.get?
  refine ⟨?_, ?_⟩
  · intro hget
    obtain ⟨hi, hnode⟩ := List.getElem?_eq_some_iff.1 hget
    refine ⟨List.mem_of_getElem? hget, UInt32.toNat_inj.1 ?_⟩
    rw [← hnode, h _ hi]
  · intro hnode
    obtain ⟨hmem, rfl⟩ := hnode
    obtain ⟨k, hk, rfl⟩ := List.mem_iff_getElem.1 hmem
    rw [h k hk]
    exact List.getElem?_eq_getElem hk

/-- There is a node at every index below the size. -/
theorem exists_get?_iff : (∃ node, g.get? i = some node) ↔ i.toNat < g.size := by
  unfold Graph.get?
  rw [← Option.isSome_iff_exists, Option.isSome_iff_ne_none, Ne, List.getElem?_eq_none_iff,
    Nat.not_le]
  rfl

/-! ## Edges at their ends -/

/-- An edge is recorded at its source if there is such a node and it has the neighbour. -/
theorem hasOutgoing_iff :
    g.hasOutgoing i j = true ↔ ∃ node, g.get? i = some node ∧ j ∈ node.outgoing := by
  unfold hasOutgoing
  rw [Option.any_eq_true]
  simp only [decide_eq_true_eq]

theorem hasIncoming_iff :
    g.hasIncoming i j = true ↔ ∃ node, g.get? i = some node ∧ j ∈ node.incoming := by
  unfold hasIncoming
  rw [Option.any_eq_true]
  simp only [decide_eq_true_eq]

/-- Of a node of the graph the question is about its own list. -/
theorem Indexed.hasOutgoing_index (h : g.Indexed) (hnode : node ∈ g.nodes) :
    g.hasOutgoing node.index j = true ↔ j ∈ node.outgoing := by
  unfold hasOutgoing
  rw [h.get?_eq_some_iff.2 ⟨hnode, rfl⟩, Option.any_some, decide_eq_true_eq]

theorem Indexed.hasIncoming_index (h : g.Indexed) (hnode : node ∈ g.nodes) :
    g.hasIncoming node.index j = true ↔ j ∈ node.incoming := by
  unfold hasIncoming
  rw [h.get?_eq_some_iff.2 ⟨hnode, rfl⟩, Option.any_some, decide_eq_true_eq]

/-- A node is its own neighbour if it has itself on either side. -/
theorem Indexed.mem_selfLoops_iff (h : g.Indexed) :
    i ∈ g.selfLoops ↔ g.hasIncoming i i = true ∨ g.hasOutgoing i i = true := by
  unfold selfLoops
  rw [List.mem_map]
  refine ⟨?_, ?_⟩
  · intro hi
    obtain ⟨node, hnode, rfl⟩ := hi
    obtain ⟨hmem, hloop⟩ := List.mem_filter.1 hnode
    rw [h.hasIncoming_index hmem, h.hasOutgoing_index hmem]
    unfold Node.hasSelfLoop at hloop
    rwa [Bool.or_eq_true, decide_eq_true_eq, decide_eq_true_eq] at hloop
  · intro hi
    have hnode : ∃ node, g.get? i = some node ∧ (i ∈ node.incoming ∨ i ∈ node.outgoing) := by
      rcases hi with hi | hi
      · obtain ⟨node, hget, hmem⟩ := hasIncoming_iff.1 hi
        exact ⟨node, hget, .inl hmem⟩
      · obtain ⟨node, hget, hmem⟩ := hasOutgoing_iff.1 hi
        exact ⟨node, hget, .inr hmem⟩
    obtain ⟨node, hget, hneighbour⟩ := hnode
    obtain ⟨hmem, rfl⟩ := h.get?_eq_some_iff.1 hget
    refine ⟨node, List.mem_filter.2 ⟨hmem, ?_⟩, rfl⟩
    unfold Node.hasSelfLoop
    rwa [Bool.or_eq_true, decide_eq_true_eq, decide_eq_true_eq]

/-- A node reports the edges that it has and the other end does not. -/
theorem mem_unmirroredAt_iff :
    e ∈ g.unmirroredAt node ↔
      (e.source = node.index ∧ e.target ∈ node.outgoing ∧
        g.hasIncoming e.target e.source = false) ∨
      (e.target = node.index ∧ e.source ∈ node.incoming ∧
        g.hasOutgoing e.source e.target = false) := by
  obtain ⟨source, target⟩ := e
  unfold unmirroredAt
  rw [List.mem_append, List.mem_map, List.mem_map]
  simp only [List.mem_filter, IndexSet.mem_toList, Bool.not_eq_true', Edge.mk.injEq]
  refine or_congr ⟨?_, ?_⟩ ⟨?_, ?_⟩
  · rintro ⟨t, ⟨hmem, hmissing⟩, rfl, rfl⟩
    exact ⟨rfl, hmem, hmissing⟩
  · rintro ⟨rfl, hmem, hmissing⟩
    exact ⟨target, ⟨hmem, hmissing⟩, rfl, rfl⟩
  · rintro ⟨s, ⟨hmem, hmissing⟩, rfl, rfl⟩
    exact ⟨rfl, hmem, hmissing⟩
  · rintro ⟨rfl, hmem, hmissing⟩
    exact ⟨source, ⟨hmem, hmissing⟩, rfl, rfl⟩

/-- An edge is listed if one of its ends has it and the other does not. -/
theorem Indexed.mem_unmirroredEdges_iff (h : g.Indexed) :
    e ∈ g.unmirroredEdges ↔ g.hasOutgoing e.source e.target ≠ g.hasIncoming e.target e.source := by
  unfold unmirroredEdges
  rw [Ascending.mem_ofList, List.mem_flatMap]
  refine ⟨?_, ?_⟩
  · intro he
    obtain ⟨node, hnode, he⟩ := he
    rcases mem_unmirroredAt_iff.1 he with ⟨hindex, hmem, hmissing⟩ | ⟨hindex, hmem, hmissing⟩
    · rw [hmissing, hindex, (h.hasOutgoing_index hnode).2 hmem]
      decide
    · rw [hmissing, hindex, (h.hasIncoming_index hnode).2 hmem]
      decide
  · intro hne
    -- the end that has the edge is the node that lists it
    cases hout : g.hasOutgoing e.source e.target with
    | true =>
      rw [hout, ne_comm, ne_eq, Bool.not_eq_true] at hne
      obtain ⟨node, hget, hmem⟩ := hasOutgoing_iff.1 hout
      obtain ⟨hnode, hindex⟩ := h.get?_eq_some_iff.1 hget
      exact ⟨node, hnode, mem_unmirroredAt_iff.2 (.inl ⟨hindex.symm, hmem, hne⟩)⟩
    | false =>
      rw [hout, ne_comm, ne_eq, Bool.not_eq_false] at hne
      obtain ⟨node, hget, hmem⟩ := hasIncoming_iff.1 hne
      obtain ⟨hnode, hindex⟩ := h.get?_eq_some_iff.1 hget
      exact ⟨node, hnode, mem_unmirroredAt_iff.2 (.inr ⟨hindex.symm, hmem, hout⟩)⟩

/-! ## Counting edges -/

/-- The edges that are recorded at their sources, in the order of the graph. -/
def outgoingEdges (g : Graph) : List Edge :=
  g.nodes.flatMap fun node => node.outgoing.toList.map fun target => ⟨node.index, target⟩

/-- The edges that are recorded at their targets, in the order of the graph. -/
def incomingEdges (g : Graph) : List Edge :=
  g.nodes.flatMap fun node => node.incoming.toList.map fun source => ⟨source, node.index⟩

/-- Collecting the edges at their sources counts them. -/
theorem length_outgoingEdges (g : Graph) : g.outgoingEdges.length = g.edgeCount := by
  unfold outgoingEdges edgeCount
  simp only [List.length_flatMap, List.length_map]

theorem length_incomingEdges (g : Graph) :
    g.incomingEdges.length = (g.nodes.map fun node => node.incoming.size).sum := by
  unfold incomingEdges
  simp only [List.length_flatMap, List.length_map]
  rfl

/-- What is collected at the sources is what is recorded there. -/
theorem Indexed.mem_outgoingEdges_iff (h : g.Indexed) :
    e ∈ g.outgoingEdges ↔ g.hasOutgoing e.source e.target = true := by
  unfold outgoingEdges
  simp only [List.mem_flatMap, List.mem_map, hasOutgoing_iff, h.get?_eq_some_iff]
  refine exists_congr fun node => ?_
  refine ⟨?_, ?_⟩
  · rintro ⟨hnode, target, hmem, rfl⟩
    exact ⟨⟨hnode, rfl⟩, hmem⟩
  · rintro ⟨⟨hnode, hindex⟩, hmem⟩
    exact ⟨hnode, e.target, hmem, by rw [hindex]⟩

theorem Indexed.mem_incomingEdges_iff (h : g.Indexed) :
    e ∈ g.incomingEdges ↔ g.hasIncoming e.target e.source = true := by
  unfold incomingEdges
  simp only [List.mem_flatMap, List.mem_map, hasIncoming_iff, h.get?_eq_some_iff]
  refine exists_congr fun node => ?_
  refine ⟨?_, ?_⟩
  · rintro ⟨hnode, source, hmem, rfl⟩
    exact ⟨⟨hnode, rfl⟩, hmem⟩
  · rintro ⟨⟨hnode, hindex⟩, hmem⟩
    exact ⟨hnode, e.source, hmem, by rw [hindex]⟩

/-- No two nodes carry the same index. -/
theorem Indexed.pairwise_index (h : g.Indexed) :
    g.nodes.Pairwise fun m n => m.index ≠ n.index := by
  rw [List.pairwise_iff_getElem]
  intro i j hi hj hlt heq
  have hplace := congrArg UInt32.toNat heq
  rw [h i hi, h j hj] at hplace
  exact absurd hplace (Nat.ne_of_lt hlt)

/-- Edges that are collected from the nodes at one of their ends are each collected once. -/
theorem Indexed.nodup_flatMap (h : g.Indexed) {side : Node → IndexSet} {edge : Node → UInt32 → Edge}
    (own other : Edge → UInt32) (hown : ∀ node i, own (edge node i) = node.index)
    (hother : ∀ node i, other (edge node i) = i) :
    (g.nodes.flatMap fun node => (side node).toList.map (edge node)).Nodup := by
  rw [List.nodup_flatMap]
  refine ⟨?_, ?_⟩
  · intro node _
    refine (IndexSet.nodup_toList (side node)).map ?_
    intro i j heq
    rw [← hother node i, heq, hother]
  · refine h.pairwise_index.imp ?_
    intro m n hne e hm hn
    obtain ⟨i, -, rfl⟩ := List.mem_map.1 hm
    obtain ⟨j, -, heq⟩ := List.mem_map.1 hn
    exact hne (by rw [← hown m i, ← heq, hown])

/-- The number of edges is that of the edges recorded at their sources, each counted once.
-/
theorem Indexed.edgeCount_eq_card (h : g.Indexed) {edges : Finset Edge}
    (hedges : ∀ e, e ∈ edges ↔ g.hasOutgoing e.source e.target = true) :
    g.edgeCount = edges.card := by
  have hnodup : g.outgoingEdges.Nodup := h.nodup_flatMap Edge.source Edge.target
    (fun _ _ => rfl) fun _ _ => rfl
  have hset : g.outgoingEdges.toFinset = edges := by
    ext e
    rw [List.mem_toFinset, h.mem_outgoingEdges_iff, hedges]
  rw [← length_outgoingEdges, ← hset, List.toFinset_card_of_nodup hnodup]

theorem Indexed.sum_incoming_eq_card (h : g.Indexed) {edges : Finset Edge}
    (hedges : ∀ e, e ∈ edges ↔ g.hasIncoming e.target e.source = true) :
    (g.nodes.map fun node => node.incoming.size).sum = edges.card := by
  have hnodup : g.incomingEdges.Nodup := h.nodup_flatMap Edge.target Edge.source
    (fun _ _ => rfl) fun _ _ => rfl
  have hset : g.incomingEdges.toFinset = edges := by
    ext e
    rw [List.mem_toFinset, h.mem_incomingEdges_iff, hedges]
  rw [← length_incomingEdges, ← hset, List.toFinset_card_of_nodup hnodup]

end Graph

end TraceGraph
