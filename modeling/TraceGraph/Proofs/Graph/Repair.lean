import TraceGraph.Proofs.Graph.Building
import TraceGraph.Proofs.Graph.Faults

/-!
# An added edge repairs and breaks nothing

A graph need not be consistent when an edge is added: one end may know the edge already, and
other edges may be known to one of their ends only. What happens then is stated completely:

> `Repaired`: what holds of a graph once an edge between two of its nodes was added, as one
> statement
> for each thing that can be asked of it.

The edge is written to both ends and to nothing else, so the nodes of the new graph are
those of the old one with at most two changes (`getElem?_link`). Everything follows from
this description. The edge itself is no longer a fault and every other fault stays
(`Indexed.unmirroredEdges_link`), loops are neither made nor removed
(`Indexed.selfLoops_link`), and the count goes up by one if the source did not know the edge
(`Indexed.edgeCount_link`). The lists are compared as ascending lists with the same members.

Adding the edge again changes nothing, because a set has each member once (`link_link`). The
second time the answer is that it is known.

An edge that is refused changes nothing either. The reasons for that, and the order in which
they are looked for, are part of the main result `Indexed.addEdge_repaired`.
-/

namespace TraceGraph

/-- A member that is there need not be added. -/
theorem IndexSet.insert_insert (s : IndexSet) (i : UInt32) :
    (s.insert i).insert i = s.insert i := by
  refine IndexSet.ext fun k => ?_
  rw [mem_insert, mem_insert, ← or_assoc, or_self]

/-- A neighbour is new once: adding it again tells so and changes nothing. -/
theorem Node.addOutgoing_again (node : Node) (i : UInt32) :
    (node.addOutgoing i).2.addOutgoing i = (false, (node.addOutgoing i).2) := by
  have hknown : i ∈ node.outgoing.insert i := IndexSet.mem_insert.2 (.inl rfl)
  unfold addOutgoing
  rw [IndexSet.insert_insert, decide_eq_false (not_not_intro hknown)]

theorem Node.addIncoming_again (node : Node) (i : UInt32) :
    (node.addIncoming i).2.addIncoming i = (false, (node.addIncoming i).2) := by
  have hknown : i ∈ node.incoming.insert i := IndexSet.mem_insert.2 (.inl rfl)
  unfold addIncoming
  rw [IndexSet.insert_insert, decide_eq_false (not_not_intro hknown)]

namespace Graph

variable {g : Graph} {m n : Node} {source target : UInt32} {e : Edge}

/-- What holds of a graph once an edge between two of its nodes was added. -/
structure Repaired (g : Graph) (source target : UInt32) (added : Bool) (g' : Graph) : Prop where
  /-- The edge is new if its source did not know it. -/
  added_iff : added = true ↔ ∃ m, g.get? source = some m ∧ target ∉ m.outgoing
  /-- The source differs in its outgoing neighbours, which are one more. -/
  source_node : ∃ m outgoing, g.get? source = some m ∧
    g'.get? source = some { m with outgoing := outgoing } ∧
    ∀ i, i ∈ outgoing ↔ i = target ∨ i ∈ m.outgoing
  /-- The target differs in its incoming neighbours, which are one more. -/
  target_node : ∃ n incoming, g.get? target = some n ∧
    g'.get? target = some { n with incoming := incoming } ∧
    ∀ i, i ∈ incoming ↔ i = source ∨ i ∈ n.incoming
  other_nodes : ∀ k, k ≠ source.toNat → k ≠ target.toNat → g'.nodes[k]? = g.nodes[k]?
  indexed : g'.Indexed
  edgeCount_eq : g'.edgeCount = g.edgeCount + added.toNat
  unmirroredEdges_eq : g'.unmirroredEdges = g.unmirroredEdges.erase ⟨source, target⟩
  selfLoops_eq : g'.selfLoops = g.selfLoops
  /-- The same edge is known the second time and changes nothing. -/
  again : g'.step (.addEdge source target) = (.edge (.ok false), g')

/-! ## The nodes of a graph with one more edge -/

/-- The nodes after linking, place by place. -/
theorem getElem?_link (g : Graph) (source target : UInt32) (k : Nat) :
    (g.link source target).nodes[k]? = (g.nodes[k]?).map fun node =>
      let node := if source.toNat = k then (node.addOutgoing target).2 else node
      if target.toNat = k then (node.addIncoming source).2 else node := by
  unfold link modify
  dsimp only
  rw [List.getElem?_modify, List.getElem?_modify]
  cases g.nodes[k]? with
  | none => rfl
  | some node => rfl

/-- The source has gained the target among its outgoing neighbours. -/
theorem get?_link_source (hne : source ≠ target) (hm : g.get? source = some m) :
    (g.link source target).get? source = some (m.addOutgoing target).2 := by
  have hplace : target.toNat ≠ source.toNat := fun h => hne (UInt32.toNat_inj.1 h).symm
  unfold get? at hm ⊢
  rw [getElem?_link, hm]
  simp only [Option.map_some, if_pos, if_neg hplace]

/-- The target has gained the source among its incoming neighbours. -/
theorem get?_link_target (hne : source ≠ target) (hn : g.get? target = some n) :
    (g.link source target).get? target = some (n.addIncoming source).2 := by
  have hplace : source.toNat ≠ target.toNat := fun h => hne (UInt32.toNat_inj.1 h)
  unfold get? at hn ⊢
  rw [getElem?_link, hn]
  simp only [Option.map_some, if_pos, if_neg hplace]

/-- Any other node is what it was. -/
theorem getElem?_link_of_ne {k : Nat} (hsource : k ≠ source.toNat) (htarget : k ≠ target.toNat) :
    (g.link source target).nodes[k]? = g.nodes[k]? := by
  rw [getElem?_link]
  simp only [if_neg hsource.symm, if_neg htarget.symm, Option.map_id']

theorem size_link (g : Graph) (source target : UInt32) : (g.link source target).size = g.size := by
  unfold link
  rw [size_modify, size_modify]

/-- Linking keeps the nodes at their places. -/
theorem Indexed.link (h : g.Indexed) (source target : UInt32) :
    (g.link source target).Indexed := by
  have hsource : (g.modify source fun node => (node.addOutgoing target).2).Numbered :=
    h.numbered.modify source fun _ => rfl
  have hnumbered : (g.link source target).Numbered := hsource.modify target fun _ => rfl
  exact hnumbered.indexed (g.size_link source target ▸ h.size_le)

/-- Both ends already know the edge that was just added. -/
theorem link_link (g : Graph) (source target : UInt32) :
    (g.link source target).link source target = g.link source target := by
  -- a change of one side leaves the other side of the same node alone
  have hswap : ∀ node : Node, ((node.addIncoming source).2.addOutgoing target).2 =
      ((node.addOutgoing target).2.addIncoming source).2 := fun _ => rfl
  have hnodes : ((g.link source target).link source target).nodes =
      (g.link source target).nodes := by
    refine List.ext_getElem? fun k => ?_
    rw [getElem?_link, getElem?_link, Option.map_map]
    refine congrArg (Option.map · _) (funext fun node => ?_)
    dsimp only [Function.comp]
    by_cases hs : source.toNat = k
    · by_cases ht : target.toNat = k
      · simp only [if_pos hs, if_pos ht, hswap, Node.addOutgoing_again, Node.addIncoming_again]
      · simp only [if_pos hs, if_neg ht, Node.addOutgoing_again]
    · by_cases ht : target.toNat = k
      · simp only [if_neg hs, if_pos ht, Node.addIncoming_again]
      · simp only [if_neg hs, if_neg ht]
  exact congrArg Graph.mk hnodes

/-! ## The faults of a graph with one more edge -/

/-- Of any other edge the sources say what they said. -/
theorem hasOutgoing_link_of_ne (hne : e ≠ ⟨source, target⟩) :
    (g.link source target).hasOutgoing e.source e.target = g.hasOutgoing e.source e.target := by
  refine Bool.eq_iff_iff.2 (hasOutgoing_link.trans (or_iff_left ?_))
  rintro ⟨rfl, rfl, -⟩
  exact hne rfl

theorem hasIncoming_link_of_ne (hne : e ≠ ⟨source, target⟩) :
    (g.link source target).hasIncoming e.target e.source = g.hasIncoming e.target e.source := by
  refine Bool.eq_iff_iff.2 (hasIncoming_link.trans (or_iff_left ?_))
  rintro ⟨rfl, rfl, -⟩
  exact hne rfl

/-- Both ends know the edge, so it is no fault; of every other edge both ends say what they said. -/
theorem Indexed.unmirroredEdges_link (h : g.Indexed) (hsource : source.toNat < g.size)
    (htarget : target.toNat < g.size) :
    (g.link source target).unmirroredEdges = g.unmirroredEdges.erase ⟨source, target⟩ := by
  have hnodup : g.unmirroredEdges.Nodup := by
    refine g.pairwise_unmirroredEdges.imp ?_
    intro e f hlt heq
    exact Ascending.StrictOrder.irrefl e (heq ▸ hlt)
  refine Ascending.eq_of_mem_iff (pairwise_unmirroredEdges _)
    (g.pairwise_unmirroredEdges.sublist List.erase_sublist) fun e => ?_
  rw [(h.link source target).mem_unmirroredEdges_iff, hnodup.mem_erase_iff,
    h.mem_unmirroredEdges_iff]
  by_cases he : e = ⟨source, target⟩
  · subst he
    have hout : (g.link source target).hasOutgoing source target = true :=
      hasOutgoing_link.2 (.inr ⟨rfl, rfl, hsource⟩)
    have hin : (g.link source target).hasIncoming target source = true :=
      hasIncoming_link.2 (.inr ⟨rfl, rfl, htarget⟩)
    refine iff_of_false ?_ ?_
    · rw [hout, hin]
      exact fun hne => hne rfl
    · exact fun hfault => hfault.1 rfl
  · rw [hasOutgoing_link_of_ne he, hasIncoming_link_of_ne he]
    exact (and_iff_right he).symm

/-- An edge between two different nodes makes neither its own neighbour. -/
theorem Indexed.selfLoops_link (h : g.Indexed) (hne : source ≠ target) :
    (g.link source target).selfLoops = g.selfLoops := by
  refine Ascending.eq_of_mem_iff (h.link source target).pairwise_selfLoops h.pairwise_selfLoops
    fun i => ?_
  rw [(h.link source target).mem_selfLoops_iff, h.mem_selfLoops_iff, hasOutgoing_link,
    hasIncoming_link]
  have hloop : ¬(i = source ∧ i = target) := fun heq => hne (heq.1.symm.trans heq.2)
  have hloop' : ¬(i = target ∧ i = source) := fun heq => hloop heq.symm
  simp only [← and_assoc, hloop, hloop', false_and, or_false]

/-- One more edge is counted unless its source knew it already. -/
theorem Indexed.edgeCount_link (h : g.Indexed) (hsource : source.toNat < g.size) :
    (g.link source target).edgeCount = g.edgeCount + (!g.hasOutgoing source target).toNat := by
  have hcount : g.edgeCount = g.outgoingEdges.toFinset.card :=
    h.edgeCount_eq_card fun e => List.mem_toFinset.trans h.mem_outgoingEdges_iff
  have hcount' : (g.link source target).edgeCount =
      (g.outgoingEdges ++ [Edge.mk source target]).toFinset.card := by
    refine (h.link source target).edgeCount_eq_card fun e => ?_
    rw [List.mem_toFinset, List.mem_append, List.mem_singleton, h.mem_outgoingEdges_iff,
      hasOutgoing_link]
    cases e
    simp [hsource]
  have hnew : decide (Edge.mk source target ∉ g.outgoingEdges) =
      !g.hasOutgoing source target := by
    rw [decide_not, decide_eq_decide.2 h.mem_outgoingEdges_iff, Bool.decide_coe]
  rw [hcount', card_toFinset_concat, hnew, hcount]

/-! ## Adding an edge -/

/-- An edge between two different nodes of the graph is accepted. -/
theorem step_addEdge_of_lt (hne : source ≠ target) (hsource : source.toNat < g.size)
    (htarget : target.toNat < g.size) :
    g.step (.addEdge source target) =
      (.edge (.ok !g.hasOutgoing source target), g.link source target) := by
  rw [step_addEdge, if_neg hne, if_neg (Nat.not_le.2 htarget), if_neg (Nat.not_le.2 hsource)]

/-- The parts of `Repaired`, one by one, for an edge that is accepted. -/
theorem Indexed.link_repaired (h : g.Indexed) (hne : source ≠ target)
    (hm : g.get? source = some m) (hn : g.get? target = some n) :
    g.Repaired source target (!g.hasOutgoing source target) (g.link source target) := by
  have hsource := exists_get?_iff.1 ⟨m, hm⟩
  have htarget := exists_get?_iff.1 ⟨n, hn⟩
  have hsize := g.size_link source target
  exact {
    added_iff := by
      rw [Bool.not_eq_true', hasOutgoing_eq_false_iff]
      simp only [hm, Option.some.injEq, forall_eq', exists_eq_left']
    source_node :=
      ⟨m, m.outgoing.insert target, hm, get?_link_source hne hm, fun _ => IndexSet.mem_insert⟩
    target_node :=
      ⟨n, n.incoming.insert source, hn, get?_link_target hne hn, fun _ => IndexSet.mem_insert⟩
    other_nodes := fun _ => getElem?_link_of_ne
    indexed := h.link source target
    edgeCount_eq := h.edgeCount_link hsource
    unmirroredEdges_eq := h.unmirroredEdges_link hsource htarget
    selfLoops_eq := h.selfLoops_link hne
    again := by
      have hknown : (g.link source target).hasOutgoing source target = true :=
        hasOutgoing_link.2 (.inr ⟨rfl, rfl, hsource⟩)
      rw [step_addEdge_of_lt hne (hsize.symm ▸ hsource) (hsize.symm ▸ htarget), hknown, link_link]
      rfl }

/-- An edge is refused for being a loop, for its target or for its source, in this order, and then
the graph stays as it is. Otherwise it is accepted, and the graph that has it is repaired there and
the same everywhere else. -/
theorem Indexed.addEdge_repaired (h : g.Indexed) (source target : UInt32) :
    (source = target →
      g.step (.addEdge source target) = (.edge (.error (.selfEdge source)), g)) ∧
    (source ≠ target → g.get? target = none →
      g.step (.addEdge source target) = (.edge (.error (.unknownNode target)), g)) ∧
    (source ≠ target → g.get? target ≠ none → g.get? source = none →
      g.step (.addEdge source target) = (.edge (.error (.unknownNode source)), g)) ∧
    (source ≠ target → g.get? target ≠ none → g.get? source ≠ none →
      ∃ added g', g.step (.addEdge source target) = (.edge (.ok added), g') ∧
        g.Repaired source target added g') := by
  refine ⟨?_, ?_, ?_, ?_⟩
  · intro heq
    rw [step_addEdge, if_pos heq]
  · intro hne htarget
    rw [step_addEdge, if_neg hne, if_pos (get?_eq_none_iff.1 htarget)]
  · intro hne htarget hsource
    rw [step_addEdge, if_neg hne, if_neg (mt get?_eq_none_iff.2 htarget),
      if_pos (get?_eq_none_iff.1 hsource)]
  · intro hne htarget hsource
    obtain ⟨m, hm⟩ := Option.ne_none_iff_exists'.1 hsource
    obtain ⟨n, hn⟩ := Option.ne_none_iff_exists'.1 htarget
    exact ⟨_, _, step_addEdge_of_lt hne (exists_get?_iff.1 ⟨m, hm⟩) (exists_get?_iff.1 ⟨n, hn⟩),
      h.link_repaired hne hm hn⟩

/-- Two nodes that name neighbours on one side only: an edge from the second to the first that the
second does not know, and a loop. -/
def halfEdges : Graph :=
  ⟨[{ Node.external 0 {} 0x1000 with incoming := .ofList [1] },
    { Node.external 1 {} 0x2000 with outgoing := .ofList [1] }]⟩

theorem addEdge_repaired_halfEdges :
    halfEdges.Indexed ∧ halfEdges.unmirroredEdges = [⟨1, 0⟩, ⟨1, 1⟩] ∧
      ∃ g', halfEdges.step (.addEdge 1 0) = (.edge (.ok true), g') ∧
        halfEdges.Repaired 1 0 true g' ∧ g'.unmirroredEdges = [⟨1, 1⟩] := by
  have hindexed : halfEdges.Indexed := by
    intro i hi
    have hcases : i = 0 ∨ i = 1 := by
      have hlt : i < 2 := hi
      omega
    rcases hcases with rfl | rfl
    · rfl
    · rfl
  obtain ⟨added, g', hstep, hrepaired⟩ :=
    (hindexed.addEdge_repaired 1 0).2.2.2 (by decide) (by decide) (by decide)
  have hadded : added = true :=
    hrepaired.added_iff.2 ⟨halfEdges.nodes[1], rfl, by decide⟩
  subst hadded
  refine ⟨hindexed, by decide, g', hstep, hrepaired, ?_⟩
  rw [hrepaired.unmirroredEdges_eq]
  decide

end Graph

end TraceGraph
