import TraceGraph.Bytes
import TraceGraph.Disassembly
import TraceGraph.IndexSet

/-!
# Node records

What is saved of a node. Two nodes are the same node when their records are equal.

A record is generic in how it refers to its instruction block: as read from a file it names
a mutation (`Record UInt32`), and once bound through a lookup it holds the block itself
(`Record Block`). So the two stages of a load have different types, and a record cannot be
used before it is bound. The way back, from a block to the mutation that names it, is
`Record.unbound`.

What distinguishes the two kinds of nodes is in `Kind`. An internal node is a block of the
traced program; an external one is a function outside of it and has the arguments of the
calls that were captured instead. The other fields are common to both.
-/

namespace TraceGraph

/-- The place of a node in graph space: longitude `a`, polar angle `b`, and the number of steps
`bmod` by which the node is moved along `b`, so that siblings do not overlap. -/
structure Position where
  a : Int32 := 0
  b : Int32 := 0
  bmod : Int32 := 0
deriving DecidableEq, Repr, Inhabited

/-- The arguments captured for one call: argument positions and raw bytes. -/
abbrev Arguments := List (Int32 × Bytes)

/-- A node is a block of the traced program or a function outside of it. -/
inductive Kind (β : Type) where
  | internal (block : β)
  | external (calls : List Arguments)
deriving DecidableEq, Repr

namespace Kind

variable {β γ : Type}

/-- Exchanges the block and leaves calls as they are. -/
def map (f : β → γ) : Kind β → Kind γ
  | .internal block => .internal (f block)
  | .external calls => .external calls

/-- Whether this is the kind of an external node. -/
def isExternal : Kind β → Bool
  | .internal _ => false
  | .external _ => true

end Kind

/-- The saved part of a node. -/
structure Record (β : Type) where
  index : UInt32
  position : Position
  /-- Branch class of the block, owned by the trace analysis. -/
  conditional : Int32 := 0
  nodeMod : Int32 := 0
  address : UInt64
  executions : UInt64 := 0
  incoming : IndexSet := .empty
  outgoing : IndexSet := .empty
  kind : Kind β
deriving DecidableEq

namespace Record

variable {β γ : Type}

/-- Exchanges the block of the record. -/
def map (f : β → γ) (r : Record β) : Record γ :=
  { r with kind := r.kind.map f }

/-- Whether this is the record of an external node. -/
def isExternal (r : Record β) : Bool := r.kind.isExternal

/-- The record as it is written: a block is named by its mutation. -/
def unbound (r : Record Block) : Record UInt32 := r.map Block.mutation

end Record

end TraceGraph
