import TraceGraph.Proofs.Builder

/-!
# How fast a builder grows

A record has counts of 32 bits in front of its lists, so a graph with longer lists could not
be written. This module bounds the lists by the number of operations that have built the
graph.

No operation adds more than one node to the graph, or more than one neighbour on each side
and one call to a node. The bound is one number for all of these:

> `Builder.Within k`: the graph has at most `k` nodes, and no node has more than `k`
> neighbours on
> either side or `k` calls.

An operation takes `Within k` to `Within (k + 1)` (`Within.step`). An edge changes two
nodes, which may be one and the same, but the two changes are on different sides, so neither
side grows by two. By induction a run of `n` operations leaves a graph within `n`
(`Within.run`), and if there are fewer operations than there are counts, every node can be
written (`countable_run`).

The argument lists of calls are not built one by one but handed over whole. They are asked
to be short enough from the beginning (`BuildStep.Short`).
-/

namespace TraceGraph

/-- A set grows by one member at most. -/
theorem Ascending.length_insert_le {α : Type} [LT α] [DecidableLT α] [DecidableEq α] (a : α)
    (as : List α) : (insert a as).length ≤ as.length + 1 := by
  induction as with
  | nil => exact Nat.le_refl _
  | cons b bs ih =>
    rw [insert]
    by_cases hlt : a < b
    · rw [if_pos hlt]
      exact Nat.le_refl _
    · rw [if_neg hlt]
      by_cases heq : a = b
      · rw [if_pos heq]
        exact Nat.le_succ _
      · rw [if_neg heq, List.length_cons, List.length_cons]
        omega

theorem IndexSet.size_insert_le (i : UInt32) (s : IndexSet) : (s.insert i).size ≤ s.size + 1 :=
  Ascending.length_insert_le i s.toList

/-! ## Nodes -/

/-- A node has at most so many neighbours on each side and so many calls, each of which has few
enough arguments for a count. -/
structure Node.Within (incoming outgoing calls : Nat) (node : Node) : Prop where
  incoming : node.incoming.size ≤ incoming
  outgoing : node.outgoing.size ≤ outgoing
  calls : node.kind.calls.length ≤ calls
  arguments : ∀ arguments ∈ node.kind.calls, arguments.length < UInt32.size

/-- The list that the change brings with it, if any, is short enough for a count. -/
def NodeChange.Short : NodeChange → Prop
  | .pushCall arguments => arguments.length < UInt32.size
  | _ => True

instance : (change : NodeChange) → Decidable change.Short
  | .pushCall arguments => inferInstanceAs (Decidable (arguments.length < UInt32.size))
  | .addIncoming _ | .addOutgoing _ | .addExecutions _ | .setConditional _ | .setNodeMod _
  | .setPosition _ => .isTrue trivial

/-- The change that the operation makes, if any, is short enough. -/
def BuildStep.Short : BuildStep → Prop
  | .change _ made => made.Short
  | _ => True

instance : (a : BuildStep) → Decidable a.Short
  | .change _ made => inferInstanceAs (Decidable made.Short)
  | .record _ | .bind _ _ | .pushInternal _ _ | .pushExternal _ _ | .addEdge _ _ => .isTrue trivial

namespace Node

variable {node : Node} {i j o p c d k : Nat}

/-- A bound may be raised. -/
theorem Within.mono (h : node.Within i o c) (hi : i ≤ j) (ho : o ≤ p) (hc : c ≤ d) :
    node.Within j p d :=
  ⟨Nat.le_trans h.incoming hi, Nat.le_trans h.outgoing ho, Nat.le_trans h.calls hc, h.arguments⟩

/-- One more neighbour on one side, and nothing on the other. -/
theorem Within.addIncoming (h : node.Within i o c) (neighbour : UInt32) :
    (node.addIncoming neighbour).2.Within (i + 1) o c := by
  refine ⟨?_, h.outgoing, h.calls, h.arguments⟩
  exact Nat.le_trans (IndexSet.size_insert_le ..) (Nat.succ_le_succ h.incoming)

theorem Within.addOutgoing (h : node.Within i o c) (neighbour : UInt32) :
    (node.addOutgoing neighbour).2.Within i (o + 1) c := by
  refine ⟨h.incoming, ?_, h.calls, h.arguments⟩
  exact Nat.le_trans (IndexSet.size_insert_le ..) (Nat.succ_le_succ h.outgoing)

/-- One more call, and its list is as short as it was handed over. -/
theorem Within.pushCall (h : node.Within i o c) {arguments : Arguments}
    (hshort : arguments.length < UInt32.size) : (node.pushCall arguments).2.Within i o (c + 1) := by
  obtain ⟨⟨index, position, conditional, nodeMod, address, executions, incoming, outgoing, kind⟩,
    s⟩ := node
  cases kind with
  | internal block => exact h.mono (Nat.le_refl _) (Nat.le_refl _) (Nat.le_succ _)
  | external calls =>
    have hcalls : calls.length ≤ c := h.calls
    refine ⟨h.incoming, h.outgoing, ?_, ?_⟩
    · show (calls ++ [arguments]).length ≤ c + 1
      rw [List.length_append, List.length_singleton]
      exact Nat.succ_le_succ hcalls
    · show ∀ list ∈ calls ++ [arguments], list.length < UInt32.size
      intro list hlist
      rcases List.mem_append.1 hlist with hlist | hlist
      · exact h.arguments list hlist
      · rw [List.mem_singleton.1 hlist]
        exact hshort

/-- A change adds to one of the lists, so raising all bounds by one covers each of them. -/
theorem Within.apply (h : node.Within k k k) {change : NodeChange} (hshort : change.Short) :
    (change.apply node).Within (k + 1) (k + 1) (k + 1) := by
  have hk := Nat.le_succ k
  have h' := h.mono hk hk hk
  cases change with
  | addIncoming neighbour => exact (h.addIncoming neighbour).mono (Nat.le_refl _) hk hk
  | addOutgoing neighbour => exact (h.addOutgoing neighbour).mono hk (Nat.le_refl _) hk
  | pushCall arguments => exact (h.pushCall hshort).mono hk hk (Nat.le_refl _)
  | addExecutions count => exact ⟨h'.incoming, h'.outgoing, h'.calls, h'.arguments⟩
  | setConditional value => exact ⟨h'.incoming, h'.outgoing, h'.calls, h'.arguments⟩
  | setNodeMod value => exact ⟨h'.incoming, h'.outgoing, h'.calls, h'.arguments⟩
  | setPosition position => exact ⟨h'.incoming, h'.outgoing, h'.calls, h'.arguments⟩

/-- A new node has no lists yet. -/
theorem within_internal (index : UInt32) (position : Position) (block : Block) :
    (internal index position block).Within k k k :=
  ⟨Nat.zero_le k, Nat.zero_le k, Nat.zero_le k, nofun⟩

theorem within_external (index : UInt32) (position : Position) (address : UInt64) :
    (external index position address).Within k k k :=
  ⟨Nat.zero_le k, Nat.zero_le k, Nat.zero_le k, nofun⟩

/-- A node with fewer neighbours and calls than there are counts can be written. -/
theorem Within.countable (h : node.Within k k k) (hk : k < UInt32.size) :
    node.toRecord.Countable :=
  ⟨Nat.lt_of_le_of_lt h.incoming hk, Nat.lt_of_le_of_lt h.outgoing hk,
    Nat.lt_of_le_of_lt h.calls hk, h.arguments⟩

end Node

/-! ## Runs -/

namespace Builder

/-- The graph has at most so many nodes, and none of them has a longer list. -/
structure Within (k : Nat) (b : Builder) : Prop where
  size : b.graph.size ≤ k
  nodes : ∀ node ∈ b.graph.nodes, node.Within k k k

variable {b : Builder} {k : Nat}

theorem Within.succ (h : Within k b) : Within (k + 1) b := by
  have hk := Nat.le_succ k
  exact ⟨Nat.le_trans h.size hk, fun node hnode => (h.nodes node hnode).mono hk hk hk⟩

/-- One more node, with lists that are short already. -/
theorem Within.append (h : Within k b) {node : Node} (hnode : node.Within (k + 1) (k + 1) (k + 1)) :
    Within (k + 1) { b with graph := ⟨b.graph.nodes ++ [node]⟩ } := by
  refine ⟨?_, ?_⟩
  · show (b.graph.nodes ++ [node]).length ≤ k + 1
    rw [List.length_append, List.length_singleton]
    exact Nat.succ_le_succ h.size
  · intro m hm
    rcases List.mem_append.1 hm with hm | hm
    · exact h.succ.nodes m hm
    · rw [List.mem_singleton.1 hm]
      exact hnode

theorem size_modify (g : Graph) (index : UInt32) (f : Node → Node) :
    (g.modify index f).size = g.size := List.length_modify ..

/-- An operation raises the bound by one. -/
theorem Within.step (h : Within k b) {a : BuildStep} (hshort : a.Short) :
    Within (k + 1) (b.step a).2 := by
  cases a with
  | record ins =>
    unfold Builder.step
    dsimp only
    cases b.store.record ins with
    | error failure => exact h.succ
    | ok result => exact ⟨h.succ.size, h.succ.nodes⟩
  | bind address mutation =>
    unfold Builder.step
    dsimp only
    cases Block.bind? b.store.lookup address mutation with
    | error failure => exact h.succ
    | ok found =>
      cases found with
      | none => exact h.succ
      | some block => exact ⟨h.succ.size, h.succ.nodes⟩
  | pushInternal position place =>
    unfold Builder.step
    dsimp only
    cases b.blocks[place]? with
    | none => exact h.succ
    | some block => exact h.append (Node.within_internal _ position block)
  | pushExternal position address => exact h.append (Node.within_external _ position address)
  | addEdge source target =>
    unfold Builder.step
    dsimp only
    cases hedge : b.graph.addEdge source target with
    | error e => exact h.succ
    | ok result =>
      have hgraph := Graph.eq_of_addEdge hedge
      have hk := Nat.le_succ k
      -- each side of a node grows by one at most, since the two changes are on different sides
      have hout : ∀ node ∈ (b.graph.modify source fun node => (node.addOutgoing target).2).nodes,
          node.Within k (k + 1) (k + 1) := by
        intro node hnode
        rcases Graph.mem_modify hnode with hnode | ⟨m, hm, hnode⟩
        · exact (h.nodes node hnode).mono (Nat.le_refl _) hk hk
        · rw [hnode]
          exact ((h.nodes m hm).addOutgoing target).mono (Nat.le_refl _) (Nat.le_refl _) hk
      refine ⟨?_, ?_⟩
      · show result.2.size ≤ k + 1
        rw [hgraph, size_modify, size_modify]
        exact h.succ.size
      · show ∀ node ∈ result.2.nodes, _
        rw [hgraph]
        intro node hnode
        rcases Graph.mem_modify hnode with hnode | ⟨m, hm, hnode⟩
        · exact (hout node hnode).mono hk (Nat.le_refl _) (Nat.le_refl _)
        · rw [hnode]
          exact (hout m hm).addIncoming source
  | change index change =>
    refine ⟨?_, ?_⟩
    · show (b.graph.modify index change.apply).size ≤ k + 1
      rw [size_modify]
      exact h.succ.size
    · intro node hnode
      rcases Graph.mem_modify hnode with hnode | ⟨m, hm, hnode⟩
      · exact h.succ.nodes node hnode
      · rw [hnode]
        exact (h.nodes m hm).apply hshort

/-- A run raises the bound by the number of its operations. -/
theorem Within.run (h : Within k b) {steps : List BuildStep} (hshort : ∀ a ∈ steps, a.Short) :
    Within (k + steps.length) (Builder.run steps b).2 := by
  induction steps generalizing b k with
  | nil => exact h
  | cons a steps ih =>
    have hstep := h.step (hshort a (List.mem_cons_self ..))
    have hsteps := ih hstep fun a ha => hshort a (List.mem_cons_of_mem _ ha)
    rw [Nat.add_right_comm] at hsteps
    exact hsteps

/-- What is built in fewer operations than there are counts can be written. -/
theorem countable_run (store : Store) {steps : List BuildStep}
    (hlength : steps.length < UInt32.size) (hshort : ∀ a ∈ steps, a.Short) :
    (∀ node ∈ (Builder.run steps { store }).2.graph.nodes, node.toRecord.Countable) ∧
      (Builder.run steps { store }).2.graph.size < UInt64.size := by
  have hempty : Within 0 { store } := ⟨Nat.le_refl _, nofun⟩
  have hwithin := hempty.run hshort
  rw [Nat.zero_add] at hwithin
  refine ⟨fun node hnode => (hwithin.nodes node hnode).countable hlength, ?_⟩
  exact Nat.lt_of_le_of_lt hwithin.size (Nat.lt_trans hlength (by decide))

end Builder

end TraceGraph
