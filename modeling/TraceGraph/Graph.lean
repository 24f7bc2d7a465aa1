import TraceGraph.Node

/-!
# Trace graphs

A graph is the list of its nodes, and a node's index is its place in the list. A push gives
the next index to its node; a node that was made elsewhere is only taken if it carries it
(`Graph.insert`). So a graph that is built here is `Indexed` as long as there are indices
left, and so is one that is loaded.

Neighbours are indices and nothing more. A loaded graph can mention nodes that do not exist,
or name an edge on one of its ends only, since each record stands for itself; whether it
does is for the diagnosis to say (`Summary`).

An edge that is added here is recorded on both of its ends, which have to exist and to be
different (`Graph.addEdge`). The two ends are looked up before anything is changed, the
target first, so an edge that is refused leaves the graph as it is. Whether an edge is new
is asked of its source alone.

`Graph.Same` compares two graphs by what is saved of them.
-/

namespace TraceGraph

/-- The nodes of one traced thread. -/
structure Graph where
  nodes : List Node := []
deriving DecidableEq

/-- Why a graph refuses a node or an edge. -/
inductive GraphError where
  | outOfOrder (index expected : UInt32)
  | unknownNode (index : UInt32)
  | selfEdge (index : UInt32)
deriving DecidableEq, Repr

namespace GraphError

/-- What a message says of the refusal. -/
def message : GraphError → String
  | .outOfOrder index expected =>
    s!"node {index.toNat} inserted out of order (next free index is {expected.toNat})"
  | .unknownNode index => s!"node index {index.toNat} does not exist"
  | .selfEdge index => s!"self edge on node {index.toNat}"

end GraphError

namespace Graph

/-- The graph without nodes. -/
def empty : Graph := {}

instance : Inhabited Graph := ⟨empty⟩

/-- The number of nodes. -/
def size (g : Graph) : Nat := g.nodes.length

/-- The index that the next node gets. -/
def nextIndex (g : Graph) : UInt32 := .ofNat g.size

/-- Whether two graphs agree in all that is saved. -/
def Same (g h : Graph) : Prop := g.nodes.map Node.toRecord = h.nodes.map Node.toRecord

instance (g h : Graph) : Decidable (Same g h) :=
  inferInstanceAs (Decidable (g.nodes.map Node.toRecord = h.nodes.map Node.toRecord))

/-- Whether every node stands at the place that its index names. -/
def Indexed (g : Graph) : Prop := ∀ i (h : i < g.nodes.length), g.nodes[i].index.toNat = i

/-- Adds an internal node and returns its index. -/
def pushInternal (g : Graph) (position : Position) (block : Block) : UInt32 × Graph :=
  (g.nextIndex, ⟨g.nodes ++ [.internal g.nextIndex position block]⟩)

/-- Adds an external node and returns its index. -/
def pushExternal (g : Graph) (position : Position) (address : UInt64) : UInt32 × Graph :=
  (g.nextIndex, ⟨g.nodes ++ [.external g.nextIndex position address]⟩)

/-- Adds a node that was made elsewhere, provided that it carries the next free index. -/
def insert (g : Graph) (node : Node) : Except GraphError (UInt32 × Graph) :=
  if node.index = g.nextIndex then .ok (g.nextIndex, ⟨g.nodes ++ [node]⟩)
  else .error (.outOfOrder node.index g.nextIndex)

/-- The node at an index. -/
def get? (g : Graph) (i : UInt32) : Option Node := g.nodes[i.toNat]?

/-- Changes the node at an index, if there is one. -/
def modify (g : Graph) (i : UInt32) (f : Node → Node) : Graph := ⟨g.nodes.modify i.toNat f⟩

/-- Records an edge on both of its ends and tells whether its source did not know it yet. -/
def addEdge (g : Graph) (source target : UInt32) : Except GraphError (Bool × Graph) :=
  if source = target then .error (.selfEdge source)
  else
    -- both ends are looked up before either is changed
    match g.get? target, g.get? source with
    | none, _ => .error (.unknownNode target)
    | some _, none => .error (.unknownNode source)
    | some _, some node =>
      .ok ((node.addOutgoing target).1,
        (g.modify source fun node => (node.addOutgoing target).2).modify target fun node =>
          (node.addIncoming source).2)

/-- The number of edges, counted at their sources. -/
def edgeCount (g : Graph) : Nat := (g.nodes.flatMap fun node => node.outgoing.toList).length

/-- The number of external nodes. -/
def externalCount (g : Graph) : Nat := g.nodes.countP fun node => node.isExternal

end Graph

end TraceGraph
