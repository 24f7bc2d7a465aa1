import TraceGraph.Graph.Diagnosis
import TraceGraph.Graph.Dot
import TraceGraph.Proofs.Graph.Section
import TraceGraph.Sphere

/-!
# Graphs that agree in all that is saved

A node has a record and some scratch state, and only the record is saved. This module shows
that nothing that is asked of a graph depends on the scratch state, and that nothing that is
done to it brings the scratch state into the records.

Questions are answered for the graph without any scratch state (`Graph.saved`), with one
lemma for each question. Graphs that agree in all that is saved become one and the same
graph in this way (`saved_eq_of_same`), so they have the same answers:

> `Same.shown`: the same summary, drawing and layout.

Operations are compared directly. They give the same answers on both graphs and leave graphs
that agree again (`Same.pushInternal`, `Same.pushExternal`, `Same.modify`, `Same.addEdge`).
For the change of a node this needs that the change itself is `Clean`: whatever the scratch
state was, it saves the same.
-/

namespace TraceGraph

namespace Node

/-- The node with no trace of its use. -/
def saved (node : Node) : Node := ⟨node.toRecord, {}⟩

/-- A change that saves the same whatever the scratch state is. -/
def Clean (f : Node → Node) : Prop :=
  ∀ (record : Record Block) (s s' : Runtime), Same (f ⟨record, s⟩) (f ⟨record, s'⟩)

/-- A clean change keeps two nodes the same. -/
theorem Clean.same {f : Node → Node} (hf : Clean f) {m n : Node} (h : Same m n) :
    Same (f m) (f n) := by
  obtain ⟨record, s⟩ := m
  obtain ⟨record', s'⟩ := n
  obtain rfl : record = record' := h
  exact hf record s s'

end Node

namespace Graph

variable {g g' : Graph}

/-- The graph with no trace of its use. -/
def saved (g : Graph) : Graph := ⟨g.nodes.map Node.saved⟩

/-- Without their scratch state, graphs that agree are equal. -/
theorem saved_eq_of_same (h : Same g g') : g.saved = g'.saved := by
  have hsaved : ∀ nodes : List Node,
      nodes.map Node.saved = (nodes.map Node.toRecord).map fun record => ⟨record, {}⟩ := by
    intro nodes
    rw [List.map_map]
    rfl
  unfold saved
  rw [hsaved, hsaved, h]

/-! ## Questions -/

/-- A node is found at the same index. -/
theorem get?_saved (g : Graph) (i : UInt32) : g.saved.get? i = (g.get? i).map Node.saved :=
  List.getElem?_map

theorem hasIncoming_saved (g : Graph) (i j : UInt32) :
    g.saved.hasIncoming i j = g.hasIncoming i j := by
  unfold hasIncoming
  rw [get?_saved, Option.any_map]
  rfl

theorem hasOutgoing_saved (g : Graph) (i j : UInt32) :
    g.saved.hasOutgoing i j = g.hasOutgoing i j := by
  unfold hasOutgoing
  rw [get?_saved, Option.any_map]
  rfl

/-- What a node reports is about neighbours, which are saved. -/
theorem unmirroredAt_saved (g : Graph) (node : Node) :
    g.saved.unmirroredAt node.saved = g.unmirroredAt node := by
  unfold unmirroredAt
  rw [funext fun target => congrArg not (g.hasIncoming_saved target node.saved.index),
    funext fun source => congrArg not (g.hasOutgoing_saved source node.saved.index)]
  rfl

theorem unmirroredEdges_saved (g : Graph) : g.saved.unmirroredEdges = g.unmirroredEdges := by
  unfold unmirroredEdges
  show Ascending.ofList ((g.nodes.map Node.saved).flatMap g.saved.unmirroredAt) = _
  rw [List.flatMap_map, funext fun node => g.unmirroredAt_saved node]

theorem selfLoops_saved (g : Graph) : g.saved.selfLoops = g.selfLoops := by
  unfold selfLoops saved
  rw [List.filter_map, List.map_map]
  rfl

theorem edgeCount_saved (g : Graph) : g.saved.edgeCount = g.edgeCount := by
  unfold edgeCount saved
  rw [List.flatMap_map]
  rfl

theorem externalCount_saved (g : Graph) : g.saved.externalCount = g.externalCount := by
  unfold externalCount saved
  rw [List.countP_map]
  rfl

theorem size_saved (g : Graph) : g.saved.size = g.size := List.length_map ..

/-- A summary is made of questions that are answered the same. -/
theorem summary_saved (g : Graph) : Summary.of g.saved = Summary.of g := by
  unfold Summary.of
  rw [size_saved, externalCount_saved, edgeCount_saved, selfLoops_saved, unmirroredEdges_saved]

/-- A drawing shows nothing of the scratch state. -/
theorem toDot_saved (g : Graph) : g.saved.toDot = g.toDot := by
  unfold toDot Dot.lines saved
  rw [List.map_map, List.flatMap_map]
  rfl

/-- Nor does a layout. -/
theorem layout_saved (sphere : Sphere) (lift : Float32) (g : Graph) :
    g.saved.layout sphere lift = g.layout sphere lift := by
  unfold layout saved
  rw [List.map_map]
  rfl

/-- Graphs that agree in all that is saved have the same summary, drawing and places. -/
theorem Same.shown (h : Same g g') :
    Summary.of g = Summary.of g' ∧ g.toDot = g'.toDot ∧
      ∀ sphere lift, g.layout sphere lift = g'.layout sphere lift := by
  have hsaved := saved_eq_of_same h
  refine ⟨?_, ?_, ?_⟩
  · rw [← summary_saved g, hsaved, summary_saved]
  · rw [← toDot_saved g, hsaved, toDot_saved]
  · intro sphere lift
    rw [← layout_saved sphere lift g, hsaved, layout_saved]

/-! ## Operations -/

/-- The next index is the number of the nodes. -/
theorem Same.nextIndex (h : Same g g') : g.nextIndex = g'.nextIndex :=
  congrArg UInt32.ofNat (size_eq_of_same h)

/-- Nodes that agree may be added to graphs that agree. -/
theorem Same.append {m n : Node} (h : Same g g') (hnode : m.Same n) :
    Same ⟨g.nodes ++ [m]⟩ ⟨g'.nodes ++ [n]⟩ := by
  unfold Same at h ⊢
  rw [List.map_append, List.map_append, h]
  exact congrArg (_ ++ [·]) hnode

/-- A new block gets the same index in both graphs. -/
theorem Same.pushInternal (h : Same g g') (position : Position) (block : Block) :
    (g.pushInternal position block).1 = (g'.pushInternal position block).1 ∧
      Same (g.pushInternal position block).2 (g'.pushInternal position block).2 := by
  unfold Graph.pushInternal
  rw [h.nextIndex]
  exact ⟨rfl, h.append rfl⟩

theorem Same.pushExternal (h : Same g g') (position : Position) (address : UInt64) :
    (g.pushExternal position address).1 = (g'.pushExternal position address).1 ∧
      Same (g.pushExternal position address).2 (g'.pushExternal position address).2 := by
  unfold Graph.pushExternal
  rw [h.nextIndex]
  exact ⟨rfl, h.append rfl⟩

/-- At each index there is a node in both graphs or in neither, and two nodes are the same. -/
theorem Same.get? (h : Same g g') (i : UInt32) :
    (g.get? i = none ∧ g'.get? i = none) ∨
      ∃ m n, g.get? i = some m ∧ g'.get? i = some n ∧ m.Same n := by
  have hrecord : (g.get? i).map Node.toRecord = (g'.get? i).map Node.toRecord := by
    unfold Graph.get?
    rw [← List.getElem?_map, ← List.getElem?_map, h]
  cases hm : g.get? i with
  | none =>
    rw [hm, Option.map_none, eq_comm, Option.map_eq_none_iff] at hrecord
    exact .inl ⟨rfl, hrecord⟩
  | some m =>
    rw [hm, Option.map_some, eq_comm, Option.map_eq_some_iff] at hrecord
    obtain ⟨n, hn, hsame⟩ := hrecord
    exact .inr ⟨m, n, rfl, hn, hsame.symm⟩

/-- A clean change at an index keeps two graphs the same. -/
theorem Same.modify {f : Node → Node} (h : Same g g') (i : UInt32)
    (hf : Node.Clean f) : Same (g.modify i f) (g'.modify i f) := by
  have hget : ∀ j : Nat, (g.nodes[j]?).map Node.toRecord = (g'.nodes[j]?).map Node.toRecord := by
    intro j
    rw [← List.getElem?_map, ← List.getElem?_map, h]
  refine List.ext_getElem? ?_
  intro j
  unfold Graph.modify
  rw [List.getElem?_map, List.getElem?_map, List.getElem?_modify, List.getElem?_modify]
  have hj := hget j
  cases hm : g.nodes[j]? with
  | none =>
    rw [hm, Option.map_none, eq_comm, Option.map_eq_none_iff] at hj
    rw [hj]
  | some m =>
    rw [hm, Option.map_some, eq_comm, Option.map_eq_some_iff] at hj
    obtain ⟨n, hn, hsame⟩ := hj
    rw [hn]
    -- the node at `j` is changed in both graphs or in neither
    by_cases hij : i.toNat = j
    · simp only [if_pos hij, Option.map_eq_map, Option.map_some]
      exact congrArg some (hf.same hsame.symm)
    · simp only [if_neg hij, Option.map_eq_map, Option.map_some]
      exact congrArg some hsame.symm

/-- An edge is refused by both graphs for the same reason or accepted by both. -/
theorem Same.addEdge (h : Same g g') (source target : UInt32) :
    (∃ e, g.addEdge source target = .error e ∧ g'.addEdge source target = .error e) ∨
    ∃ added g₁ g₂, g.addEdge source target = .ok (added, g₁) ∧
      g'.addEdge source target = .ok (added, g₂) ∧ Same g₁ g₂ := by
  unfold Graph.addEdge
  by_cases heq : source = target
  · rw [if_pos heq, if_pos heq]
    exact .inl ⟨_, rfl, rfl⟩
  · rw [if_neg heq, if_neg heq]
    rcases h.get? target with ⟨hg, hg'⟩ | ⟨m, n, hg, hg', -⟩
    · rw [hg, hg']
      exact .inl ⟨_, rfl, rfl⟩
    · rw [hg, hg']
      rcases h.get? source with ⟨hs, hs'⟩ | ⟨m', n', hs, hs', hsame⟩
      · rw [hs, hs']
        exact .inl ⟨_, rfl, rfl⟩
      · rw [hs, hs']
        have houtgoing : m'.outgoing = n'.outgoing := congrArg Record.outgoing hsame
        have hadded : (m'.addOutgoing target).1 = (n'.addOutgoing target).1 := by
          unfold Node.addOutgoing
          rw [houtgoing]
        have hchanged :=
          (h.modify source (f := fun node => (node.addOutgoing target).2) fun _ _ _ => rfl).modify
            target (f := fun node => (node.addIncoming source).2) fun _ _ _ => rfl
        refine .inr ⟨_, _, _, rfl, ?_, hchanged⟩
        dsimp only
        rw [hadded]

end Graph

end TraceGraph
