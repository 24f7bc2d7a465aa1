import TraceGraph.Proofs.Graph.Diagnosis
import TraceGraph.Proofs.Graph.Outcome

/-!
# Summaries are exact

A loaded graph can have any neighbours at all: some that do not exist, edges that only one
end knows, a node that is its own neighbour on one side. A summary has to tell all of this
and nothing else.

> `Summary.Exact`: each list of faults is in ascending order and has exactly the faults of
> the graph,
> the counts are those of its nodes, and it is called well formed if and only if every edge
> is known to
> two existing nodes and none is a loop.

The one thing that is needed for it is that the nodes stand at the places of their indices,
and this holds of every graph that was read (`indexed_of_extend`). Of the neighbours nothing
is assumed.

The lists are settled first, by turning the Boolean questions of the diagnosis into
statements about nodes (`hasOutgoing_ne_hasIncoming_iff`). A graph without a listed fault
then has ends that agree (`Indexed.isWellFormed_iff_agree`), and where all ends agree every
neighbour exists, because a node that does not exist agrees with nothing
(`Indexed.exists_neighbour`).

The main result is `Indexed.summary_exact`.
-/

namespace TraceGraph

/-- What a summary says of a graph is what the nodes of the graph say of one another. -/
structure Summary.Exact (s : Summary) (g : Graph) : Prop where
  unmirroredEdges_ascending : s.unmirroredEdges.Pairwise (· < ·)
  /-- The listed edges are those that one end knows while the other does not exist or does not know
  them. -/
  mem_unmirroredEdges_iff : ∀ e, e ∈ s.unmirroredEdges ↔
    (∃ m, g.get? e.source = some m ∧ e.target ∈ m.outgoing ∧
      ∀ n, g.get? e.target = some n → e.source ∉ n.incoming) ∨
    (∃ n, g.get? e.target = some n ∧ e.source ∈ n.incoming ∧
      ∀ m, g.get? e.source = some m → e.target ∉ m.outgoing)
  selfLoops_ascending : s.selfLoops.Pairwise (· < ·)
  /-- The listed nodes are those that have themselves on either side. -/
  mem_selfLoops_iff : ∀ i, i ∈ s.selfLoops ↔
    ∃ node, g.get? i = some node ∧ (i ∈ node.incoming ∨ i ∈ node.outgoing)
  /-- A graph is well formed if all neighbours exist, none is the node itself, and what one end says
  of an edge the other says too. -/
  isWellFormed_iff : s.isWellFormed = true ↔
    (∀ node ∈ g.nodes, ∀ i, i ∈ node.incoming ∨ i ∈ node.outgoing → ∃ m, g.get? i = some m) ∧
    (∀ node ∈ g.nodes, node.index ∉ node.incoming ∧ node.index ∉ node.outgoing) ∧
    ∀ i j, (∃ m, g.get? i = some m ∧ j ∈ m.outgoing) ↔ ∃ n, g.get? j = some n ∧ i ∈ n.incoming
  nodes_eq : s.nodes = g.nodes.length
  internal_eq : s.internal = g.nodes.countP fun node => !node.isExternal
  external_eq : s.external = g.nodes.countP fun node => node.isExternal
  internal_add_external : s.internal + s.external = s.nodes

namespace Graph

variable {g : Graph} {node : Node} {i j : UInt32} {e : Edge}

/-! ## Graphs that were read -/

/-- What is read into a graph without nodes stands at the places of its indices. -/
theorem indexed_of_extend {lookup : Lookup} {s : ByteStream} {result : Except SectionError Unit}
    (h : extend lookup empty s = (result, g)) (hsize : g.size ≤ UInt32.size) : g.Indexed := by
  obtain ⟨nodes, -, -, -, hcontinues, -, rfl, -⟩ := extend_eq_iff.1 h
  exact Numbered.indexed (continues_empty_iff.1 hcontinues) hsize

/-! ## The lists of faults -/

/-- The list of unmirrored edges is made in ascending order. -/
theorem pairwise_unmirroredEdges (g : Graph) : g.unmirroredEdges.Pairwise (· < ·) :=
  Ascending.pairwise_ofList _

/-- Nodes that stand at the places of their indices are in ascending order, and so are those of
them that are listed. -/
theorem Indexed.pairwise_selfLoops (h : g.Indexed) : g.selfLoops.Pairwise (· < ·) := by
  have hnodes : g.nodes.Pairwise fun m n => m.index < n.index := by
    rw [List.pairwise_iff_getElem]
    intro i j hi hj hlt
    show g.nodes[i].index.toNat < g.nodes[j].index.toNat
    rw [h i hi, h j hj]
    exact hlt
  unfold selfLoops
  rw [List.pairwise_map]
  exact hnodes.sublist List.filter_sublist

/-- What a list says of an edge is denied if no node found there says it. -/
theorem hasIncoming_eq_false_iff :
    g.hasIncoming i j = false ↔ ∀ node, g.get? i = some node → j ∉ node.incoming := by
  rw [← Bool.not_eq_true, hasIncoming_iff]
  simp only [not_exists, not_and]

theorem hasOutgoing_eq_false_iff :
    g.hasOutgoing i j = false ↔ ∀ node, g.get? i = some node → j ∉ node.outgoing := by
  rw [← Bool.not_eq_true, hasOutgoing_iff]
  simp only [not_exists, not_and]

/-- An edge whose two ends disagree is known to one of them and not to the other. -/
theorem hasOutgoing_ne_hasIncoming_iff :
    g.hasOutgoing i j ≠ g.hasIncoming j i ↔
      (∃ m, g.get? i = some m ∧ j ∈ m.outgoing ∧
        ∀ n, g.get? j = some n → i ∉ n.incoming) ∨
      (∃ n, g.get? j = some n ∧ i ∈ n.incoming ∧
        ∀ m, g.get? i = some m → j ∉ m.outgoing) := by
  have hsides : g.hasOutgoing i j ≠ g.hasIncoming j i ↔
      (g.hasOutgoing i j = true ∧ g.hasIncoming j i = false) ∨
      (g.hasIncoming j i = true ∧ g.hasOutgoing i j = false) := by
    cases g.hasOutgoing i j <;> cases g.hasIncoming j i <;> decide
  rw [hsides, hasOutgoing_iff, hasIncoming_iff, hasIncoming_eq_false_iff, hasOutgoing_eq_false_iff]
  simp only [← and_assoc, exists_and_right]

/-! ## Well-formed graphs -/

/-- In a graph without a listed fault both ends of every edge agree on it, and no edge is a loop. -/
theorem Indexed.isWellFormed_iff_agree (h : g.Indexed) :
    (Summary.of g).isWellFormed = true ↔
      (∀ i, g.hasOutgoing i i = false) ∧ ∀ i j, g.hasOutgoing i j = g.hasIncoming j i := by
  unfold Summary.isWellFormed Summary.of
  dsimp only
  rw [Bool.and_eq_true, List.isEmpty_iff, List.isEmpty_iff, List.eq_nil_iff_forall_not_mem,
    List.eq_nil_iff_forall_not_mem]
  simp only [h.mem_selfLoops_iff, h.mem_unmirroredEdges_iff, not_or, not_not, Bool.not_eq_true]
  refine ⟨?_, ?_⟩
  · intro hfaultless
    obtain ⟨hloops, hedges⟩ := hfaultless
    exact ⟨fun i => (hloops i).2, fun i j => hedges ⟨i, j⟩⟩
  · intro hagree
    obtain ⟨hloops, hmirrored⟩ := hagree
    exact ⟨fun i => ⟨hmirrored i i ▸ hloops i, hloops i⟩, fun e => hmirrored e.source e.target⟩

/-- Where both ends of every edge agree on it, every neighbour is a node that has the edge too. -/
theorem Indexed.exists_neighbour (h : g.Indexed)
    (hmirrored : ∀ i j, g.hasOutgoing i j = g.hasIncoming j i) (hnode : node ∈ g.nodes)
    (hi : i ∈ node.incoming ∨ i ∈ node.outgoing) : ∃ m, g.get? i = some m := by
  rcases hi with hi | hi
  · have hknown := (h.hasIncoming_index hnode).2 hi
    rw [← hmirrored] at hknown
    obtain ⟨m, hget, -⟩ := hasOutgoing_iff.1 hknown
    exact ⟨m, hget⟩
  · have hknown := (h.hasOutgoing_index hnode).2 hi
    rw [hmirrored] at hknown
    obtain ⟨m, hget, -⟩ := hasIncoming_iff.1 hknown
    exact ⟨m, hget⟩

/-- A summary calls a graph well formed if and only if it is, in terms of the nodes. -/
theorem Indexed.isWellFormed_iff (h : g.Indexed) :
    (Summary.of g).isWellFormed = true ↔
      (∀ node ∈ g.nodes, ∀ i, i ∈ node.incoming ∨ i ∈ node.outgoing → ∃ m, g.get? i = some m) ∧
      (∀ node ∈ g.nodes, node.index ∉ node.incoming ∧ node.index ∉ node.outgoing) ∧
      ∀ i j, (∃ m, g.get? i = some m ∧ j ∈ m.outgoing) ↔
        ∃ n, g.get? j = some n ∧ i ∈ n.incoming := by
  rw [h.isWellFormed_iff_agree]
  refine ⟨?_, ?_⟩
  · intro hagree
    obtain ⟨hloops, hmirrored⟩ := hagree
    refine ⟨fun node hnode i hi => h.exists_neighbour hmirrored hnode hi, ?_, ?_⟩
    · intro node hnode
      rw [← h.hasIncoming_index hnode, ← h.hasOutgoing_index hnode, ← hmirrored, and_self,
        Bool.not_eq_true]
      exact hloops node.index
    · intro i j
      rw [← hasOutgoing_iff, ← hasIncoming_iff, hmirrored]
  · intro hwell
    obtain ⟨-, hloops, hmirrored⟩ := hwell
    refine ⟨?_, ?_⟩
    · intro i
      rw [hasOutgoing_eq_false_iff]
      intro node hget
      obtain ⟨hnode, rfl⟩ := h.get?_eq_some_iff.1 hget
      exact (hloops node hnode).2
    · intro i j
      exact Bool.eq_iff_iff.2 (by rw [hasOutgoing_iff, hasIncoming_iff, hmirrored])

/-! ## Counts -/

/-- Every node is counted on one side, so the internal nodes are what the external ones leave. -/
theorem size_sub_externalCount (g : Graph) :
    g.size - g.externalCount = g.nodes.countP fun node => !node.isExternal := by
  have hcount := List.length_eq_countP_add_countP (fun node : Node => node.isExternal)
    (l := g.nodes)
  simp only [Bool.not_eq_true, Bool.decide_eq_false] at hcount
  unfold size externalCount
  omega

/-- The summary of a graph whose nodes stand at the places of their indices is exact, whatever their
neighbours are. -/
theorem Indexed.summary_exact (h : g.Indexed) : (Summary.of g).Exact g where
  unmirroredEdges_ascending := g.pairwise_unmirroredEdges
  mem_unmirroredEdges_iff e := h.mem_unmirroredEdges_iff.trans hasOutgoing_ne_hasIncoming_iff
  selfLoops_ascending := h.pairwise_selfLoops
  mem_selfLoops_iff i := by
    show i ∈ g.selfLoops ↔ _
    rw [h.mem_selfLoops_iff, hasIncoming_iff, hasOutgoing_iff, ← exists_or]
    simp only [and_or_left]
  isWellFormed_iff := h.isWellFormed_iff
  nodes_eq := rfl
  internal_eq := g.size_sub_externalCount
  external_eq := rfl
  internal_add_external := Nat.sub_add_cancel g.externalCount_le_size

/-- A node that is its own neighbour on one side and has one that does not exist, and a node that
does not know of the edge to it. -/
def strayNeighbours : List Node :=
  [{ Node.external 0 {} 0x1000 with incoming := .ofList [0], outgoing := .ofList [9, 1] },
    Node.external 1 {} 0x2000]

theorem summary_exact_strayNeighbours :
    let text := strayNeighbours.flatMap Node.encode ++ endMarker
    let read := (extend (.failing "") empty { rest := text }).2
    read.Indexed ∧ (Summary.of read).Exact read ∧ read.selfLoops = [0] ∧
      read.unmirroredEdges = [⟨0, 0⟩, ⟨0, 1⟩, ⟨0, 9⟩] := by
  intro text read
  have hwell : ∀ node ∈ strayNeighbours, node.WellFormed (.failing "") := by
    intro node hnode
    rcases List.mem_cons.1 hnode with rfl | hnode
    · exact .of_external rfl (by decide)
    · obtain rfl := List.mem_singleton.1 hnode
      exact .of_external rfl (by decide)
  have hread : extend (.failing "") empty { rest := text } =
      (.ok (), ⟨strayNeighbours.map Node.reread⟩) :=
    extend_encode hwell (by decide) 0
  have hgraph : read = ⟨strayNeighbours.map Node.reread⟩ := congrArg Prod.snd hread
  have hindexed : read.Indexed := by
    rw [hgraph]
    exact indexed_of_extend hread (by decide)
  refine ⟨hindexed, hindexed.summary_exact, ?_, ?_⟩
  · rw [hgraph]
    decide
  · rw [hgraph]
    decide

end Graph

end TraceGraph
