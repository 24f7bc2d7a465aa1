import TraceGraph.Record

/-!
# Nodes

A node is its record and the scratch state of the builder and the renderer.

The scratch state is never saved: `Node.ofRecord` makes it afresh, and the only part of it
that is remembered by the record is the number of calls of an external node. That number is
counted from one, because the first call is the one that created the node; so it is the
number of captured calls, but one if there are none (`callCount`).

The operations that a builder makes on single nodes tell what they did. A new neighbour is
told from a known one (`addIncoming`, `addOutgoing`), and a captured call from one that is
not kept because the node is internal (`pushCall`, `pushCall_fst`).

`Node.Same` compares two nodes by what is saved of them.
-/

namespace TraceGraph

/-- Scratch state of the builder and the renderer. -/
structure Runtime where
  parent : UInt32 := 0
  /-- How often an external node was called; its creation counts as the first call. -/
  calls : UInt64 := 1
  /-- How many external functions were called from this block. -/
  childExternals : UInt32 := 0
  chainRemainingIn : UInt64 := 0
  chainRemainingOut : UInt64 := 0
  heatMarker : UInt32 := 0
deriving DecidableEq, Repr, Inhabited

/-- A node of a trace graph. -/
structure Node extends Record Block where
  runtime : Runtime := {}
deriving DecidableEq

namespace Node

/-- The number of calls that a list of captured calls stands for. -/
def callCount (calls : List Arguments) : UInt64 := .ofNat (max 1 calls.length)

/-- An internal node at the address of its instruction. -/
def internal (index : UInt32) (position : Position) (block : Block) : Node where
  index
  position
  address := block.instruction.address
  kind := .internal block

/-- An external node without captured calls. -/
def external (index : UInt32) (position : Position) (address : UInt64) : Node where
  index
  position
  address
  kind := .external []

/-- Counts the calls of an external node anew from the captured ones. -/
def recountCalls (node : Node) : Node :=
  match node.kind with
  | .internal _ => node
  | .external calls => { node with runtime.calls := callCount calls }

/-- The node of a saved record. -/
def ofRecord (record : Record Block) : Node := recountCalls { record with }

/-- Whether two nodes agree in all that is saved. -/
def Same (m n : Node) : Prop := m.toRecord = n.toRecord

instance (m n : Node) : Decidable (Same m n) :=
  inferInstanceAs (Decidable (m.toRecord = n.toRecord))

/-- Adds an incoming neighbour and tells whether it is a new one. -/
def addIncoming (node : Node) (i : UInt32) : Bool × Node :=
  (decide (i ∉ node.incoming), { node with incoming := node.incoming.insert i })

/-- Adds an outgoing neighbour and tells whether it is a new one. -/
def addOutgoing (node : Node) (i : UInt32) : Bool × Node :=
  (decide (i ∉ node.outgoing), { node with outgoing := node.outgoing.insert i })

/-- Adds to the execution count, which stays at its maximum once it is reached. -/
def addExecutions (node : Node) (count : UInt64) : Node :=
  { node with executions := .ofNat (min (node.executions.toNat + count.toNat) (UInt64.size - 1)) }

/-- Captures one more call of an external node and tells whether it is kept. The first captured call
is the one that created the node, so only later ones are counted. An internal node is left as it
is. -/
def pushCall (node : Node) (arguments : Arguments) : Bool × Node :=
  match node.kind with
  | .internal _ => (false, node)
  | .external calls =>
    (true, { node with
      kind := .external (calls ++ [arguments])
      runtime.calls := if calls.isEmpty then node.runtime.calls else node.runtime.calls + 1 })

/-- Exactly the calls of external nodes are kept. -/
theorem pushCall_fst (node : Node) (arguments : Arguments) :
    (node.pushCall arguments).1 = node.isExternal := by
  obtain ⟨⟨index, position, conditional, nodeMod, address, executions, incoming, outgoing, kind⟩,
    runtime⟩ := node
  cases kind with
  | internal block => rfl
  | external calls => rfl

/-- Whether the node is its own neighbour. -/
def hasSelfLoop (node : Node) : Bool :=
  decide (node.index ∈ node.incoming) || decide (node.index ∈ node.outgoing)

end Node

end TraceGraph
