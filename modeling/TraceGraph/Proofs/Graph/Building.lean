import TraceGraph.Proofs.Builder
import TraceGraph.Proofs.Graph.Diagnosis

/-!
# What every built graph satisfies

A graph is built from nothing by adding nodes and edges. Whatever is tried, and whatever of
it is refused, the edges that both of their ends know are the accepted ones and nothing
else. This is the invariant of the module:

> `Linked g edges`: the edges that are recorded at their sources are those of the list, and
> so are
> those that are recorded at their targets; none of them is a loop.

The step lemma is `Linked.step`. A new node has no neighbours and leaves the edges as they
are (`Linked.append`). An edge is accepted exactly between two different nodes of the graph
(`step_addEdge`), and then both ends know it (`Linked.link`). Along with it goes the count:
an edge is reported as new if it was not in the list, so the new ones are as many as the
different ones (`card_toFinset_concat`). The run lemma is `Linked.run`.

All that a diagnosis and a count report of a built graph follows from the invariant, and
`WellBuilt` collects it.

Nodes that were made elsewhere and changes of single nodes can bring in one-sided edges and
loops. They leave alone which node stands where (`Numbered.run`), and this is enough for the
second half of the main result `run_empty_wellBuilt`: the next node is accepted exactly if
it carries the next index.
-/

namespace TraceGraph

/-- One operation on a graph. -/
inductive GraphStep where
  | pushInternal (position : Position) (block : Block)
  | pushExternal (position : Position) (address : UInt64)
  | addEdge (source target : UInt32)
  /-- Adds a node that was made elsewhere. -/
  | insert (node : Node)
  | change (index : UInt32) (change : NodeChange)

/-- What an operation on a graph answers. -/
inductive GraphAnswer where
  | pushed (index : UInt32)
  | edge (result : Except GraphError Bool)
  | inserted (result : Except GraphError UInt32)
  /-- The report of the change, `none` if there is no such node. -/
  | changed (report : Option Bool)

/-- An operation on a graph and its answer. -/
structure GraphEvent where
  step : GraphStep
  answer : GraphAnswer

/-- Whether an operation adds a fresh node or an edge. -/
def GraphStep.isBuilding : GraphStep → Bool
  | pushInternal _ _ | pushExternal _ _ | addEdge _ _ => true
  | insert _ | change _ _ => false

namespace GraphEvent

/-- The edge that was accepted, be it new or known before. -/
def accepted? : GraphEvent → Option Edge
  | ⟨.addEdge source target, .edge (.ok _)⟩ => some ⟨source, target⟩
  | _ => none

/-- Whether an edge was accepted as a new one. -/
def isNewEdge : GraphEvent → Bool
  | ⟨.addEdge _ _, .edge (.ok added)⟩ => added
  | _ => false

end GraphEvent

/-- The edges that were accepted, as often as they were. -/
def acceptedEdges (events : List GraphEvent) : List Edge := events.filterMap (·.accepted?)

/-- How often an edge was accepted as a new one. -/
def newEdgeCount (events : List GraphEvent) : Nat := events.countP (·.isNewEdge)

/-- The accepted edges of a run, event by event. -/
theorem acceptedEdges_cons (event : GraphEvent) (events : List GraphEvent) :
    acceptedEdges (event :: events) = event.accepted?.toList ++ acceptedEdges events := by
  unfold acceptedEdges
  rw [List.filterMap_cons]
  cases event.accepted? <;> rfl

theorem newEdgeCount_cons (event : GraphEvent) (events : List GraphEvent) :
    newEdgeCount (event :: events) = event.isNewEdge.toNat + newEdgeCount events := by
  unfold newEdgeCount
  rw [List.countP_cons, Nat.add_comm]
  cases event.isNewEdge <;> rfl

namespace Graph

/-- Makes one operation; a refused one leaves the graph as it is. -/
def step (g : Graph) : GraphStep → GraphAnswer × Graph
  | .pushInternal position block =>
    (.pushed (g.pushInternal position block).1, (g.pushInternal position block).2)
  | .pushExternal position address =>
    (.pushed (g.pushExternal position address).1, (g.pushExternal position address).2)
  | .addEdge source target =>
    match g.addEdge source target with
    | .error e => (.edge (.error e), g)
    | .ok (added, g') => (.edge (.ok added), g')
  | .insert node =>
    match g.insert node with
    | .error e => (.inserted (.error e), g)
    | .ok (index, g') => (.inserted (.ok index), g')
  | .change index change =>
    (.changed ((g.get? index).map change.report), g.modify index change.apply)

/-- Makes operations in order. -/
def run : List GraphStep → Graph → List GraphEvent × Graph
  | [], g => ([], g)
  | a :: steps, g =>
    (⟨a, (g.step a).1⟩ :: (run steps (g.step a).2).1, (run steps (g.step a).2).2)

variable {g g' : Graph} {node : Node} {edges : List Edge} {e : Edge} {i j source target : UInt32}

/-! ## The place of a node -/

/-- As long as an index is left, a node is accepted exactly if it carries the next one. -/
theorem step_insert (hsize : g.size < UInt32.size) (node : Node) :
    g.step (.insert node) =
      if node.index.toNat = g.size then (.inserted (.ok node.index), ⟨g.nodes ++ [node]⟩)
      else (.inserted (.error (.outOfOrder node.index g.nextIndex)), g) := by
  have hnext : node.index = g.nextIndex ↔ node.index.toNat = g.size := by
    unfold nextIndex
    rw [← UInt32.toNat_inj, UInt32.toNat_ofNat_of_lt' hsize]
  unfold step insert
  dsimp only
  by_cases hindex : node.index = g.nextIndex
  · rw [if_pos hindex, if_pos (hnext.1 hindex), hindex]
  · rw [if_neg hindex, if_neg (mt hnext.2 hindex)]

/-- No operation moves a node to another index, and a node is only added with the next one.
-/
theorem Numbered.step (h : g.Numbered) (a : GraphStep) : (g.step a).2.Numbered := by
  cases a with
  | pushInternal position block => exact h.append rfl
  | pushExternal position address => exact h.append rfl
  | addEdge source target =>
    unfold Graph.step
    dsimp only
    split
    next => exact h
    next added g' hadd =>
      rw [eq_of_addEdge hadd]
      have hsource : (g.modify source fun node => (node.addOutgoing target).2).Numbered :=
        h.modify source fun _ => rfl
      exact hsource.modify target fun _ => rfl
  | insert node =>
    unfold Graph.step Graph.insert
    dsimp only
    by_cases hindex : node.index = g.nextIndex
    · rw [if_pos hindex]
      exact h.append hindex
    · rw [if_neg hindex]
      exact h
  | change index change => exact h.modify index (Builder.index_apply change)

/-- A run of any operations keeps the numbering. -/
theorem Numbered.run (h : g.Numbered) (steps : List GraphStep) :
    (Graph.run steps g).2.Numbered := by
  induction steps generalizing g with
  | nil => exact h
  | cons a steps ih => exact ih (h.step a)

theorem numbered_empty : empty.Numbered := fun _ hi => absurd hi (Nat.not_lt_zero _)

/-! ## Neighbours after a step -/

/-- A change is seen at its index only. -/
theorem get?_modify (f : Node → Node) :
    (g.modify i f).get? j = (g.get? j).map fun node => if i = j then f node else node := by
  unfold Graph.get? Graph.modify
  dsimp only
  rw [List.getElem?_modify]
  simp only [UInt32.toNat_inj]
  rfl

/-- What a change adds at its node is found there, provided that there is such a node. -/
theorem any_get?_modify {p : Node → Bool} {f : Node → Node} (added : Bool)
    (hf : ∀ node, p (f node) = (added || p node)) :
    ((g.modify i f).get? j).any p = true ↔
      (g.get? j).any p = true ∨ (j = i ∧ added = true ∧ i.toNat < g.size) := by
  rw [get?_modify]
  by_cases hij : i = j
  · subst hij
    rw [← exists_get?_iff]
    cases g.get? i with
    | none => simp
    | some node => simp [hf, or_comm]
  · simp [hij, Ne.symm hij]

/-- A node without neighbours says nothing about any edge. -/
theorem any_get?_append {p : Node → Bool} (hnode : p node = false) :
    ((Graph.mk (g.nodes ++ [node])).get? i).any p = (g.get? i).any p := by
  unfold Graph.get?
  dsimp only
  rcases Nat.lt_trichotomy i.toNat g.nodes.length with hlt | heq | hgt
  · rw [List.getElem?_append_left hlt]
  · rw [heq, List.getElem?_concat_length, List.getElem?_eq_none (Nat.le_refl _), Option.any_some,
      hnode, Option.any_none]
  · rw [List.getElem?_eq_none (Nat.le_of_lt hgt), List.getElem?_eq_none]
    rw [List.length_append, List.length_singleton]
    exact hgt

/-- The graph in which both ends know an edge. -/
def link (g : Graph) (source target : UInt32) : Graph :=
  (g.modify source fun node => (node.addOutgoing target).2).modify target fun node =>
      (node.addIncoming source).2

theorem size_modify (f : Node → Node) : (g.modify i f).size = g.size := List.length_modify ..

/-- After linking, the source knows the new edge and every edge that it knew. -/
theorem hasOutgoing_link :
    (g.link source target).hasOutgoing i j = true ↔
      g.hasOutgoing i j = true ∨ (i = source ∧ j = target ∧ source.toNat < g.size) := by
  unfold link hasOutgoing
  rw [any_get?_modify false, any_get?_modify (decide (j = target))]
  · simp
  · intro node
    unfold Node.addOutgoing
    simp [Bool.decide_or]
  · intro node
    rfl

/-- After linking, the target knows the new edge and every edge that it knew. -/
theorem hasIncoming_link :
    (g.link source target).hasIncoming i j = true ↔
      g.hasIncoming i j = true ∨ (i = target ∧ j = source ∧ target.toNat < g.size) := by
  unfold link hasIncoming
  rw [any_get?_modify (decide (j = source)), any_get?_modify false, size_modify]
  · simp
  · intro node
    rfl
  · intro node
    unfold Node.addIncoming
    simp [Bool.decide_or]

/-- There is no node at the indices from the size on. -/
theorem get?_eq_none_iff : g.get? i = none ↔ g.size ≤ i.toNat := by
  rw [← Nat.not_lt, ← exists_get?_iff, ← Option.ne_none_iff_exists', not_not]

/-- An edge between two different nodes of the graph is accepted. Otherwise it is refused for being
a loop, for its target or for its source, in this order, and the graph stays as it is. -/
theorem step_addEdge (g : Graph) (source target : UInt32) :
    g.step (.addEdge source target) =
      if source = target then (.edge (.error (.selfEdge source)), g)
      else if g.size ≤ target.toNat then (.edge (.error (.unknownNode target)), g)
      else if g.size ≤ source.toNat then (.edge (.error (.unknownNode source)), g)
      else (.edge (.ok !g.hasOutgoing source target), g.link source target) := by
  unfold step addEdge
  dsimp only
  by_cases heq : source = target
  · rw [if_pos heq, if_pos heq]
  · rw [if_neg heq, if_neg heq]
    rcases htarget : g.get? target with _ | n
    · rw [if_pos (get?_eq_none_iff.1 htarget)]
    · rw [if_neg (Nat.not_le.2 (exists_get?_iff.1 ⟨n, htarget⟩))]
      rcases hsource : g.get? source with _ | m
      · rw [if_pos (get?_eq_none_iff.1 hsource)]
      · rw [if_neg (Nat.not_le.2 (exists_get?_iff.1 ⟨m, hsource⟩))]
        unfold hasOutgoing
        rw [hsource, Option.any_some, ← decide_not]
        rfl

/-! ## The accepted edges -/

/-- The edges that are recorded at their sources are those in the list, and so are those that are
recorded at their targets. None of them is a loop. -/
structure Linked (g : Graph) (edges : List Edge) : Prop where
  outgoing : ∀ e : Edge, g.hasOutgoing e.source e.target = true ↔ e ∈ edges
  incoming : ∀ e : Edge, g.hasIncoming e.target e.source = true ↔ e ∈ edges
  distinct : ∀ e ∈ edges, e.source ≠ e.target

/-- An empty graph has no edges. -/
theorem linked_empty : Linked empty [] := by
  refine ⟨?_, ?_, ?_⟩
  · intro e
    exact iff_of_false Bool.false_ne_true List.not_mem_nil
  · intro e
    exact iff_of_false Bool.false_ne_true List.not_mem_nil
  · intro e he
    exact absurd he List.not_mem_nil

/-- A node without neighbours adds no edge. -/
theorem Linked.append (h : g.Linked edges) (hin : node.incoming = .empty)
    (hout : node.outgoing = .empty) : Linked ⟨g.nodes ++ [node]⟩ edges := by
  refine ⟨?_, ?_, h.distinct⟩
  · intro e
    rw [← h.outgoing e]
    unfold hasOutgoing
    rw [any_get?_append]
    simp [hout]
  · intro e
    rw [← h.incoming e]
    unfold hasIncoming
    rw [any_get?_append]
    simp [hin]

/-- An edge between two nodes of the graph is known to both of them afterwards, and no other
edge is. -/
theorem Linked.link (h : g.Linked edges) (hne : source ≠ target) (hsource : source.toNat < g.size)
    (htarget : target.toNat < g.size) :
    (g.link source target).Linked (edges ++ [⟨source, target⟩]) := by
  refine ⟨?_, ?_, ?_⟩
  · intro e
    rw [hasOutgoing_link, h.outgoing, List.mem_append, List.mem_singleton]
    cases e
    simp [hsource]
  · intro e
    rw [hasIncoming_link, h.incoming, List.mem_append, List.mem_singleton]
    cases e
    simp [htarget, and_comm]
  · intro e he
    rcases List.mem_append.1 he with he | he
    · exact h.distinct e he
    · rw [List.mem_singleton.1 he]
      exact hne

/-- One more edge counts unless it is there already. -/
theorem card_toFinset_concat (edges : List Edge) (e : Edge) :
    (edges ++ [e]).toFinset.card = edges.toFinset.card + (decide (e ∉ edges)).toNat := by
  have hset : (edges ++ [e]).toFinset = Insert.insert e edges.toFinset := by
    rw [List.toFinset_append, List.toFinset_cons, List.toFinset_nil, insert_empty_eq,
      Finset.union_comm, Finset.singleton_union]
  rw [hset, Finset.card_insert_eq_ite]
  by_cases he : e ∈ edges <;> simp [he]

/-- An event that accepts no edge leaves the edges as they are. -/
theorem Linked.of_accepted?_eq_none (h : g.Linked edges) {event : GraphEvent}
    (haccepted : event.accepted? = none) (hnew : event.isNewEdge = false) :
    g.Linked (edges ++ event.accepted?.toList) ∧
      (edges ++ event.accepted?.toList).toFinset.card =
        edges.toFinset.card + event.isNewEdge.toNat := by
  rw [haccepted, hnew, Option.toList_none, List.append_nil]
  exact ⟨h, rfl⟩

/-- A step adds the edge that it accepts, and reports it as a new one if it was not there yet. -/
theorem Linked.step (h : g.Linked edges) {a : GraphStep} (ha : a.isBuilding = true) :
    let event : GraphEvent := ⟨a, (g.step a).1⟩
    (g.step a).2.Linked (edges ++ event.accepted?.toList) ∧
      (edges ++ event.accepted?.toList).toFinset.card =
        edges.toFinset.card + event.isNewEdge.toNat := by
  cases a with
  | pushInternal position block => exact (h.append rfl rfl).of_accepted?_eq_none rfl rfl
  | pushExternal position address => exact (h.append rfl rfl).of_accepted?_eq_none rfl rfl
  | addEdge source target =>
    rw [step_addEdge]
    split
    next => exact h.of_accepted?_eq_none rfl rfl
    next hne =>
      split
      next => exact h.of_accepted?_eq_none rfl rfl
      next htarget =>
        split
        next => exact h.of_accepted?_eq_none rfl rfl
        next hsource =>
          refine ⟨h.link hne (Nat.not_le.1 hsource) (Nat.not_le.1 htarget), ?_⟩
          -- the report asks the source, which knows exactly the edges of the list
          have hnew : (!g.hasOutgoing source target) = decide (⟨source, target⟩ ∉ edges) := by
            rw [decide_not, ← decide_eq_decide.2 (h.outgoing ⟨source, target⟩), Bool.decide_coe]
          exact hnew ▸ card_toFinset_concat edges ⟨source, target⟩
  | insert node => exact absurd ha Bool.false_ne_true
  | change index change => exact absurd ha Bool.false_ne_true

/-- A run accepts the edges that the graph has in the end, and reports each of them as new
once. -/
theorem Linked.run {steps : List GraphStep} (h : g.Linked edges)
    (hsteps : ∀ a ∈ steps, a.isBuilding = true) :
    (Graph.run steps g).2.Linked (edges ++ acceptedEdges (Graph.run steps g).1) ∧
      (edges ++ acceptedEdges (Graph.run steps g).1).toFinset.card =
        edges.toFinset.card + newEdgeCount (Graph.run steps g).1 := by
  induction steps generalizing g edges with
  | nil =>
    have hnil : edges ++ acceptedEdges [] = edges := List.append_nil edges
    refine ⟨?_, congrArg (fun l : List Edge => l.toFinset.card) hnil⟩
    exact hnil.symm ▸ h
  | cons a steps ih =>
    obtain ⟨hstep, hcard⟩ := h.step (hsteps a List.mem_cons_self)
    obtain ⟨hrun, hcount⟩ := ih hstep fun b hb => hsteps b (List.mem_cons_of_mem a hb)
    unfold Graph.run
    rw [acceptedEdges_cons, newEdgeCount_cons, ← List.append_assoc]
    refine ⟨hrun, ?_⟩
    rw [hcount, hcard, Nat.add_assoc]

/-! ## What follows for a built graph -/

/-- Both ends of a recorded edge are in the graph. -/
theorem Linked.ends_lt (h : g.Linked edges) (he : e ∈ edges) :
    e.source.toNat < g.size ∧ e.target.toNat < g.size := by
  obtain ⟨m, hsource, -⟩ := hasOutgoing_iff.1 ((h.outgoing e).2 he)
  obtain ⟨n, htarget, -⟩ := hasIncoming_iff.1 ((h.incoming e).2 he)
  exact ⟨exists_get?_iff.1 ⟨m, hsource⟩, exists_get?_iff.1 ⟨n, htarget⟩⟩

/-- Both ends of every edge agree on it. -/
theorem Linked.mirrored (h : g.Linked edges) (i j : UInt32) :
    g.hasOutgoing i j = g.hasIncoming j i :=
  Bool.eq_iff_iff.2 ((h.outgoing ⟨i, j⟩).trans (h.incoming ⟨i, j⟩).symm)

/-- No node is its own neighbour. -/
theorem Linked.no_loop (h : g.Linked edges) (i : UInt32) : g.hasOutgoing i i = false := by
  rw [← Bool.not_eq_true, h.outgoing ⟨i, i⟩]
  exact fun hmem => h.distinct _ hmem rfl

theorem Linked.selfLoops_eq_nil (h : g.Linked edges) (hindexed : g.Indexed) :
    g.selfLoops = [] := by
  rw [List.eq_nil_iff_forall_not_mem]
  intro i hi
  rw [hindexed.mem_selfLoops_iff, ← h.mirrored, or_self, h.no_loop] at hi
  exact Bool.false_ne_true hi

theorem Linked.unmirroredEdges_eq_nil (h : g.Linked edges) (hindexed : g.Indexed) :
    g.unmirroredEdges = [] := by
  rw [List.eq_nil_iff_forall_not_mem]
  intro e he
  exact hindexed.mem_unmirroredEdges_iff.1 he (h.mirrored e.source e.target)

/-- Neighbours are nodes of the graph. -/
theorem Linked.neighbour_lt (h : g.Linked edges) (hindexed : g.Indexed) (hnode : node ∈ g.nodes)
    (hi : i ∈ node.incoming ∨ i ∈ node.outgoing) : i.toNat < g.size := by
  rcases hi with hi | hi
  · exact (h.ends_lt ((h.incoming ⟨i, node.index⟩).1 ((hindexed.hasIncoming_index hnode).2 hi))).1
  · exact (h.ends_lt ((h.outgoing ⟨node.index, i⟩).1 ((hindexed.hasOutgoing_index hnode).2 hi))).2

/-- What holds of a graph after the events of its building. -/
structure WellBuilt (g : Graph) (events : List GraphEvent) : Prop where
  indexed : g.Indexed
  /-- The edges are the accepted ones. -/
  known : ∀ e : Edge, g.hasOutgoing e.source e.target = true ↔ e ∈ acceptedEdges events
  neighbour_lt : ∀ node ∈ g.nodes, ∀ i, i ∈ node.incoming ∨ i ∈ node.outgoing → i.toNat < g.size
  mirrored : ∀ i j, g.hasOutgoing i j = g.hasIncoming j i
  no_loop : ∀ i, g.hasOutgoing i i = false
  selfLoops_eq_nil : g.selfLoops = []
  unmirroredEdges_eq_nil : g.unmirroredEdges = []
  isWellFormed : (Summary.of g).isWellFormed = true
  edgeCount_eq_new : g.edgeCount = newEdgeCount events
  edgeCount_eq_distinct : g.edgeCount = (acceptedEdges events).toFinset.card
  edgeCount_eq_incoming : g.edgeCount = (g.nodes.map fun node => node.incoming.size).sum

/-- What the invariant says of the edges is all that a diagnosis and the counts look at. -/
theorem Linked.wellBuilt {events : List GraphEvent} (h : g.Linked (acceptedEdges events))
    (hindexed : g.Indexed) (hnew : (acceptedEdges events).toFinset.card = newEdgeCount events) :
    g.WellBuilt events := by
  have hloops := h.selfLoops_eq_nil hindexed
  have hunmirrored := h.unmirroredEdges_eq_nil hindexed
  have hout : g.edgeCount = (acceptedEdges events).toFinset.card :=
    hindexed.edgeCount_eq_card fun e => List.mem_toFinset.trans (h.outgoing e).symm
  have hin : (g.nodes.map fun node => node.incoming.size).sum =
      (acceptedEdges events).toFinset.card :=
    hindexed.sum_incoming_eq_card fun e => List.mem_toFinset.trans (h.incoming e).symm
  exact {
    indexed := hindexed
    known := h.outgoing
    neighbour_lt := fun _ hnode _ => h.neighbour_lt hindexed hnode
    mirrored := h.mirrored
    no_loop := h.no_loop
    selfLoops_eq_nil := hloops
    unmirroredEdges_eq_nil := hunmirrored
    isWellFormed := by
      unfold Summary.isWellFormed Summary.of
      rw [hloops, hunmirrored]
      rfl
    edgeCount_eq_new := hout.trans hnew
    edgeCount_eq_distinct := hout
    edgeCount_eq_incoming := hout.trans hin.symm }

/-- A graph that was built from nothing by adding nodes and edges is well built, whatever of it was
refused. With nodes that were made elsewhere and changes of single nodes in between, every node
still stands at the place of its index, and the next node is accepted exactly if it carries the next
index. -/
theorem run_empty_wellBuilt (steps : List GraphStep) (hsize : (run steps empty).2.size < UInt32.size) :
    ((∀ a ∈ steps, a.isBuilding = true) → (run steps empty).2.WellBuilt (run steps empty).1) ∧
      (run steps empty).2.Indexed ∧
      ∀ node, (run steps empty).2.step (.insert node) =
        if node.index.toNat = (run steps empty).2.size then
          (.inserted (.ok node.index), ⟨(run steps empty).2.nodes ++ [node]⟩)
        else
          (.inserted (.error (.outOfOrder node.index (run steps empty).2.nextIndex)),
            (run steps empty).2) := by
  have hindexed : (run steps empty).2.Indexed :=
    (numbered_empty.run steps).indexed (Nat.le_of_lt hsize)
  refine ⟨?_, hindexed, step_insert hsize⟩
  intro hsteps
  obtain ⟨hlinked, hcard⟩ := linked_empty.run hsteps
  exact hlinked.wellBuilt hindexed (hcard.trans (Nat.zero_add _))

/-- Two nodes, an edge that is added twice, and two edges that are refused. -/
def twoNodes : List GraphStep :=
  [.pushExternal {} 0x1000, .pushExternal {} 0x2000, .addEdge 0 1, .addEdge 0 1, .addEdge 1 1,
    .addEdge 7 0]

/-- With one more node that was made elsewhere, a second one that is refused, and a loop. -/
def threeNodes : List GraphStep :=
  twoNodes ++ [.insert (.external 2 {} 0x3000), .insert (.external 2 {} 0x4000),
    .change 0 (.addIncoming 0)]

theorem run_twoNodes_wellBuilt :
    (run twoNodes empty).2.WellBuilt (run twoNodes empty).1 ∧
      (run twoNodes empty).2.edgeCount = 1 ∧
      (run threeNodes empty).2.Indexed ∧
      (run threeNodes empty).2.selfLoops = [0] ∧
      (run threeNodes empty).2.size = 3 :=
  ⟨(run_empty_wellBuilt twoNodes (by decide)).1 (by decide), by decide,
    (run_empty_wellBuilt threeNodes (by decide)).2.1, by decide, by decide⟩

end Graph

end TraceGraph
