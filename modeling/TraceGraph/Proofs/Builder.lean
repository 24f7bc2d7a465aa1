import TraceGraph.Proofs.Disassembly.History
import TraceGraph.Proofs.Graph.Same

/-!
# Building a graph

A builder records instructions in a store, adds nodes and edges to a graph and changes
nodes. This module says what a run of such operations keeps, in two parts.

The first part is about what can be seen of a run. Two builders are `Same` if they differ at
most in the scratch state of their nodes. Then every operation reports the same and keeps
them the same (`Builder.Same.step`), and so does every run (`Builder.Same.run`). The reason
lies in the changes of single nodes: what they save and what they tell depends on the record
of the node alone (`clean_apply`, `report_eq`).

The second part is about what the store knows. A node refers to its instruction by address
and mutation, and a loaded graph is only as good as this reference.

> `Sound h b`: the store holds the history `h`, the blocks that were handed out stand in it,
> every
> node carries the index that was free when it was added, and the block of every node is in
> the
> history under the node's address and the block's mutation.

An operation keeps a builder sound for the history after it, provided that the mutations are
places in the history and the store has room (`Sound.step`). A history only grows, so what
is asked of the last one holds of all earlier ones, and the run lemma `Sound.run` needs
these two facts for the end of the run only.
-/

namespace TraceGraph

/-- A change of one node. -/
inductive NodeChange where
  | addIncoming (neighbour : UInt32)
  | addOutgoing (neighbour : UInt32)
  | addExecutions (count : UInt64)
  | pushCall (arguments : Arguments)
  | setConditional (value : Int32)
  | setNodeMod (value : Int32)
  | setPosition (position : Position)

namespace NodeChange

/-- Makes a change and returns what it tells. Changes that tell nothing always happen. -/
def make : NodeChange → Node → Bool × Node
  | addIncoming i, node => node.addIncoming i
  | addOutgoing i, node => node.addOutgoing i
  | addExecutions count, node => (true, node.addExecutions count)
  | pushCall arguments, node => node.pushCall arguments
  | setConditional value, node => (true, { node with conditional := value })
  | setNodeMod value, node => (true, { node with nodeMod := value })
  | setPosition position, node => (true, { node with position })

/-- The changed node. -/
def apply (change : NodeChange) (node : Node) : Node := (change.make node).2

/-- What a change tells about a node. -/
def report (change : NodeChange) (node : Node) : Bool := (change.make node).1

end NodeChange

/-- One operation of a builder. -/
inductive BuildStep where
  | record (ins : Instruction)
  | bind (address : UInt64) (mutation : UInt32)
  /-- Adds a node for one of the blocks that were handed out so far. -/
  | pushInternal (position : Position) (place : Nat)
  | pushExternal (position : Position) (address : UInt64)
  | addEdge (source target : UInt32)
  | change (index : UInt32) (change : NodeChange)

/-- What an operation reports. -/
inductive BuildAnswer where
  | recorded (result : Except StoreFailure Instruction)
  | bound (result : Except StoreFailure (Option Block))
  /-- The index of the new node, `none` if there is no such block. -/
  | pushed (index : Option UInt32)
  | edge (result : Except GraphError Bool)
  /-- The report of the change, `none` if there is no such node. -/
  | changed (report : Option Bool)

/-- A store, the blocks that were handed out of it, and the graph that is built. -/
structure Builder where
  store : Store
  blocks : List Block := []
  graph : Graph := .empty

namespace Builder

/-- Makes one operation. -/
def step (b : Builder) : BuildStep → BuildAnswer × Builder
  | .record ins =>
    match b.store.record ins with
    | .error failure => (.recorded (.error failure), b)
    | .ok (ins, store) =>
      (.recorded (.ok ins), { b with store, blocks := b.blocks ++ [.ofInstruction ins] })
  | .bind address mutation =>
    match Block.bind? b.store.lookup address mutation with
    | .error failure => (.bound (.error failure), b)
    | .ok none => (.bound (.ok none), b)
    | .ok (some block) => (.bound (.ok (some block)), { b with blocks := b.blocks ++ [block] })
  | .pushInternal position place =>
    match b.blocks[place]? with
    | none => (.pushed none, b)
    | some block =>
      (.pushed (some (b.graph.pushInternal position block).1),
        { b with graph := (b.graph.pushInternal position block).2 })
  | .pushExternal position address =>
    (.pushed (some (b.graph.pushExternal position address).1),
      { b with graph := (b.graph.pushExternal position address).2 })
  | .addEdge source target =>
    match b.graph.addEdge source target with
    | .error e => (.edge (.error e), b)
    | .ok (added, graph) => (.edge (.ok added), { b with graph })
  | .change index change =>
    (.changed ((b.graph.get? index).map change.report),
      { b with graph := b.graph.modify index change.apply })

/-- Makes operations in order. -/
def run : List BuildStep → Builder → List BuildAnswer × Builder
  | [], b => ([], b)
  | a :: steps, b =>
    ((b.step a).1 :: (run steps (b.step a).2).1, (run steps (b.step a).2).2)

/-- The instructions that a run records. -/
def recorded (steps : List BuildStep) : List Instruction :=
  steps.filterMap fun
    | .record ins => some ins
    | _ => none

/-! ## What the builder goes by -/

/-- Two builders differ at most in the scratch state of their nodes. -/
structure Same (b b' : Builder) : Prop where
  store : b.store = b'.store
  blocks : b.blocks = b'.blocks
  graph : b.graph.Same b'.graph

variable {b b' : Builder}

/-- A change saves the same, whatever the scratch state of the node is. -/
theorem clean_apply (change : NodeChange) : Node.Clean change.apply := by
  intro record s s'
  cases change with
  | addIncoming i => rfl
  | addOutgoing i => rfl
  | addExecutions count => rfl
  | pushCall arguments =>
    obtain ⟨index, position, conditional, nodeMod, address, executions, incoming, outgoing, kind⟩ :=
      record
    cases kind with
    | internal block => rfl
    | external calls => rfl
  | setConditional value => rfl
  | setNodeMod value => rfl
  | setPosition position => rfl

/-- What a change tells depends on nothing but the record of the node. -/
theorem report_eq (change : NodeChange) {m n : Node} (h : m.Same n) :
    change.report m = change.report n := by
  obtain ⟨record, s⟩ := m
  obtain ⟨record', s'⟩ := n
  obtain rfl : record = record' := h
  -- only a call looks at the node, and at nothing else than its kind
  cases change with
  | pushCall arguments =>
    unfold NodeChange.report NodeChange.make
    dsimp only
    rw [Node.pushCall_fst, Node.pushCall_fst]
  | _ => rfl

/-- An operation reports the same and keeps two builders the same. -/
theorem Same.step (h : Same b b') (a : BuildStep) :
    (b.step a).1 = (b'.step a).1 ∧ Same (b.step a).2 (b'.step a).2 := by
  cases a with
  | record ins =>
    unfold Builder.step
    dsimp only
    rw [← h.store]
    cases b.store.record ins with
    | error failure => exact ⟨rfl, h⟩
    | ok result => exact ⟨rfl, rfl, congrArg (· ++ [_]) h.blocks, h.graph⟩
  | bind address mutation =>
    unfold Builder.step
    dsimp only
    rw [← h.store]
    cases Block.bind? b.store.lookup address mutation with
    | error failure => exact ⟨rfl, h⟩
    | ok found =>
      cases found with
      | none => exact ⟨rfl, h⟩
      | some block => exact ⟨rfl, rfl, congrArg (· ++ [block]) h.blocks, h.graph⟩
  | pushInternal position place =>
    unfold Builder.step
    dsimp only
    rw [← h.blocks]
    cases b.blocks[place]? with
    | none => exact ⟨rfl, h⟩
    | some block =>
      obtain ⟨hindex, hgraph⟩ := h.graph.pushInternal position block
      exact ⟨congrArg (fun i => BuildAnswer.pushed (some i)) hindex, h.store, rfl, hgraph⟩
  | pushExternal position address =>
    obtain ⟨hindex, hgraph⟩ := h.graph.pushExternal position address
    exact ⟨congrArg (fun i => BuildAnswer.pushed (some i)) hindex, h.store, h.blocks, hgraph⟩
  | addEdge source target =>
    unfold Builder.step
    dsimp only
    rcases h.graph.addEdge source target with ⟨e, he, he'⟩ | ⟨added, g₁, g₂, hg, hg', hgraph⟩
    · rw [he, he']
      exact ⟨rfl, h⟩
    · rw [hg, hg']
      exact ⟨rfl, h.store, h.blocks, hgraph⟩
  | change index change =>
    refine ⟨?_, h.store, h.blocks, h.graph.modify index (clean_apply change)⟩
    unfold Builder.step
    dsimp only
    rcases h.graph.get? index with ⟨hm, hn⟩ | ⟨m, n, hm, hn, hsame⟩
    · rw [hm, hn]
    · rw [hm, hn, Option.map_some, Option.map_some, report_eq change hsame]

/-- A run reports the same and keeps two builders the same. -/
theorem Same.run (h : Same b b') (steps : List BuildStep) :
    (Builder.run steps b).1 = (Builder.run steps b').1 ∧
      Same (Builder.run steps b).2 (Builder.run steps b').2 := by
  induction steps generalizing b b' with
  | nil => exact ⟨rfl, h⟩
  | cons a steps ih =>
    obtain ⟨hanswer, hsame⟩ := h.step a
    obtain ⟨hanswers, hsame'⟩ := ih hsame
    unfold Builder.run
    rw [hanswer, hanswers]
    exact ⟨rfl, hsame'⟩

/-! ## What the store knows -/

/-- The block of a node, if it has one, stands in the history under its address and its mutation. -/
def Known (h : History) (node : Node) : Prop :=
  ∀ block, node.kind = .internal block →
    (h node.address)[block.mutation.toNat]? = some block.instruction ∧
      block.instruction.address = node.address

/-- The builder of a run in which this history was recorded. -/
structure Sound (h : History) (b : Builder) : Prop where
  holds : b.store.Holds h
  blocks : ∀ block ∈ b.blocks,
    (h block.instruction.address)[block.mutation.toNat]? = some block.instruction
  numbered : b.graph.Numbered
  nodes : ∀ node ∈ b.graph.nodes, Known h node

variable {h h' : History}

/-- What a history knows, every later one knows. -/
theorem Known.of_extends (hext : h.Extends h') {node : Node} (hknown : Known h node) :
    Known h' node := by
  intro block hblock
  obtain ⟨hfound, haddress⟩ := hknown block hblock
  exact ⟨hext.getElem? hfound, haddress⟩

/-- No change exchanges the block of a node, and a call is only kept where there is none. -/
theorem known_apply (change : NodeChange) {node : Node} (hknown : Known h node) :
    Known h (change.apply node) := by
  obtain ⟨⟨index, position, conditional, nodeMod, address, executions, incoming, outgoing, kind⟩,
    s⟩ := node
  cases change with
  | addIncoming i => exact hknown
  | addOutgoing i => exact hknown
  | addExecutions count => exact hknown
  | pushCall arguments =>
    cases kind with
    | internal block => exact hknown
    | external calls =>
      intro block hblock
      cases hblock
  | setConditional value => exact hknown
  | setNodeMod value => exact hknown
  | setPosition position => exact hknown

/-- No change moves a node to another index. -/
theorem index_apply (change : NodeChange) (node : Node) :
    (change.apply node).index = node.index := by
  obtain ⟨⟨index, position, conditional, nodeMod, address, executions, incoming, outgoing, kind⟩,
    s⟩ := node
  cases change with
  | pushCall arguments => cases kind <;> rfl
  | _ => rfl

/-- A node is made with the address of its block, so the block is found under it. -/
theorem known_internal {index : UInt32} {position : Position} {block : Block}
    (hfound : (h block.instruction.address)[block.mutation.toNat]? = some block.instruction) :
    Known h (.internal index position block) := by
  intro block' hblock
  cases hblock
  exact ⟨hfound, rfl⟩

theorem known_external (index : UInt32) (position : Position) (address : UInt64) :
    Known h (.external index position address) := by
  intro block hblock
  cases hblock

end Builder

/-- A bound block holds what the lookup has handed out. -/
theorem Block.resolve_of_bind? {lookup : Lookup} {address : UInt64} {mutation : UInt32}
    {block : Block} (h : bind? lookup address mutation = .ok (some block)) :
    lookup.resolve address mutation = .ok (some block.instruction) := by
  unfold bind? at h
  split at h
  next => cases h
  next => cases h
  next ins hresolve =>
    split at h
    next =>
      cases h
      exact hresolve
    next => cases h

namespace Builder

variable {h h' : History} {b : Builder}

/-- A node that carries the next index and has a known block may be added. -/
theorem Sound.append (hsound : Sound h b) {node : Node} (hindex : node.index = b.graph.nextIndex)
    (hknown : Known h node) : Sound h { b with graph := ⟨b.graph.nodes ++ [node]⟩ } := by
  refine ⟨hsound.holds, hsound.blocks, hsound.numbered.append hindex, ?_⟩
  intro m hm
  rcases List.mem_append.1 hm with hm | hm
  · exact hsound.nodes m hm
  · rw [List.mem_singleton.1 hm]
    exact hknown

/-- Any change of any node may be made. -/
theorem Sound.modify (hsound : Sound h b) (index : UInt32) (change : NodeChange) :
    Sound h { b with graph := b.graph.modify index change.apply } := by
  refine ⟨hsound.holds, hsound.blocks, hsound.numbered.modify index (index_apply change), ?_⟩
  intro node hnode
  rcases Graph.mem_modify hnode with hnode | ⟨m, hm, hnode⟩
  · exact hsound.nodes node hnode
  · rw [hnode]
    exact known_apply change (hsound.nodes m hm)

/-- Nothing has been recorded, handed out or built. -/
theorem Sound.empty (kind : StoreKind) : Sound .empty { store := kind.empty } :=
  ⟨Store.holds_empty kind, nofun, nofun, nofun⟩

/-- The history after one more operation. -/
def after (h : History) : BuildStep → History
  | .record ins => h.record ins
  | _ => h

/-- An operation appends to the history or leaves it as it is. -/
theorem extends_after (h : History) (a : BuildStep) : h.Extends (after h a) := by
  cases a with
  | record ins => exact History.extends_record h ins
  | _ => exact .refl h

/-- An operation keeps a builder sound as long as the mutations are places and the store has
room. -/
theorem Sound.step (hsound : Sound h b) {a : BuildStep} (hnumbered : (after h a).Numbered)
    (hadmits : b.store.kind.Admits (after h a)) :
    Sound (after h a) (b.step a).2 ∧ (b.step a).2.store.kind = b.store.kind := by
  cases a with
  | record ins =>
    obtain ⟨store, hrecord, hkind, hholds⟩ := Store.record_of_holds hsound.holds hadmits
    unfold Builder.step
    dsimp only
    rw [hrecord]
    refine ⟨⟨hholds, ?_, hsound.numbered, ?_⟩, hkind⟩
    · intro block hmem
      -- older blocks keep their places, and the new one stands at the end of its address
      rcases List.mem_append.1 hmem with hmem | hmem
      · exact (extends_after h (.record ins)).getElem? (hsound.blocks block hmem)
      · rw [List.mem_singleton.1 hmem]
        exact History.getElem?_placed hnumbered
    · intro node hnode
      exact (hsound.nodes node hnode).of_extends (extends_after h (.record ins))
  | bind address mutation =>
    unfold Builder.step
    dsimp only
    cases hbind : Block.bind? b.store.lookup address mutation with
    | error failure => exact ⟨hsound, rfl⟩
    | ok found =>
      cases found with
      | none => exact ⟨hsound, rfl⟩
      | some block =>
        obtain ⟨hmutation, haddress⟩ := Block.of_bind?_eq_some hbind
        have hresolve := Block.resolve_of_bind? hbind
        rw [Store.resolve_of_holds hsound.holds, ← haddress, ← hmutation] at hresolve
        refine ⟨⟨hsound.holds, ?_, hsound.numbered, hsound.nodes⟩, rfl⟩
        intro block' hmem
        rcases List.mem_append.1 hmem with hmem | hmem
        · exact hsound.blocks block' hmem
        · rw [List.mem_singleton.1 hmem]
          exact Except.ok.inj hresolve
  | pushInternal position place =>
    unfold Builder.step
    dsimp only
    cases hplace : b.blocks[place]? with
    | none => exact ⟨hsound, rfl⟩
    | some block =>
      have hfound := hsound.blocks block (List.mem_of_getElem? hplace)
      exact ⟨hsound.append rfl (known_internal hfound), rfl⟩
  | pushExternal position address =>
    exact ⟨hsound.append rfl (known_external _ _ _), rfl⟩
  | addEdge source target =>
    unfold Builder.step
    dsimp only
    cases hedge : b.graph.addEdge source target with
    | error e => exact ⟨hsound, rfl⟩
    | ok result =>
      -- an edge is no more than a change of each of its two nodes
      have hgraph := Graph.eq_of_addEdge hedge
      have hsound' :=
        (hsound.modify source (.addOutgoing target)).modify target (.addIncoming source)
      refine ⟨?_, rfl⟩
      dsimp only
      rw [hgraph]
      exact hsound'
  | change index change => exact ⟨hsound.modify index change, rfl⟩

/-- The history of a run is built operation by operation. -/
theorem foldl_recorded_cons (h : History) (a : BuildStep) (steps : List BuildStep) :
    (recorded (a :: steps)).foldl History.record h =
      (recorded steps).foldl History.record (after h a) := by
  cases a with
  | record ins => rfl
  | _ => rfl

/-- A run leaves a sound builder. -/
theorem Sound.run (hsound : Sound h b) {steps : List BuildStep}
    (hnumbered : ((recorded steps).foldl History.record h).Numbered)
    (hadmits : b.store.kind.Admits ((recorded steps).foldl History.record h)) :
    Sound ((recorded steps).foldl History.record h) (Builder.run steps b).2 ∧
      (Builder.run steps b).2.store.kind = b.store.kind := by
  induction steps generalizing h b with
  | nil => exact ⟨hsound, rfl⟩
  | cons a steps ih =>
    rw [foldl_recorded_cons] at hnumbered hadmits ⊢
    have hext := History.extends_foldl (after h a) (recorded steps)
    -- what is asked of the last history holds of all earlier ones
    obtain ⟨hsound', hkind⟩ := hsound.step (hnumbered.of_extends hext) (hadmits.of_extends hext)
    obtain ⟨hsound'', hkind'⟩ := ih hsound' hnumbered (hkind ▸ hadmits)
    exact ⟨hsound'', hkind'.trans hkind⟩

/-- Further records leave the graph as it is and append to the history. -/
theorem run_record (list : List Instruction) (hholds : b.store.Holds h)
    (hadmits : b.store.kind.Admits (list.foldl History.record h)) :
    (Builder.run (list.map .record) b).2.store.Holds (list.foldl History.record h) ∧
      (Builder.run (list.map .record) b).2.graph = b.graph := by
  induction list generalizing h b with
  | nil => exact ⟨hholds, rfl⟩
  | cons ins list ih =>
    have hext := History.extends_foldl (h.record ins) list
    obtain ⟨store, hrecord, hkind, hholds'⟩ :=
      Store.record_of_holds hholds (hadmits.of_extends hext)
    have hstep : (b.step (.record ins)).2 =
        { b with store, blocks := b.blocks ++ [.ofInstruction (h.placed ins)] } := by
      unfold Builder.step
      dsimp only
      rw [hrecord]
    rw [List.map_cons, Builder.run, hstep]
    exact ih hholds' (hkind ▸ hadmits)

end Builder

end TraceGraph
