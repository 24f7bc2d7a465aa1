import TraceGraph.Graph

/-!
# What is wrong with a graph

A graph is well formed when no node is its own neighbour and every edge is recorded on both
of its ends, which both exist.

The diagnosis lists what stands against that. A node that is its own neighbour, on either
side, is listed by its index. An edge is listed if it is recorded on one end and not on the
other (`unmirroredAt`), which comprises the edges to nodes that do not exist: such a node
has no record of the edge. Each edge is listed once and the edges are ordered, by source and
then by target, so the list does not depend on the order in which the graph was built. That
is what the order on `Edge` is for, and why it is shown to be one (`StrictOrder Edge`).

The summary adds the counts of nodes and edges. It is what is printed of a graph, and
`isWellFormed` reads off it whether anything stands against the graph.
-/

namespace TraceGraph

/-- A directed edge between two indices. -/
structure Edge where
  source : UInt32
  target : UInt32
deriving DecidableEq, Repr

namespace Edge

/-- Edges are ordered by source, then by target. -/
instance : LT Edge where
  lt e f := e.source < f.source ∨ (e.source = f.source ∧ e.target < f.target)

instance (e f : Edge) : Decidable (e < f) :=
  inferInstanceAs (Decidable (e.source < f.source ∨ (e.source = f.source ∧ e.target < f.target)))

/-- An edge is before another by its source, or by its target if the sources are the same.
-/
theorem lt_def {e f : Edge} :
    e < f ↔ e.source < f.source ∨ (e.source = f.source ∧ e.target < f.target) := Iff.rfl

instance : Ascending.StrictOrder Edge where
  irrefl e := by simp [lt_def]
  trans := by
    intro e f g hef hfg
    rcases hef with hef | ⟨hs, hef⟩
    · rcases hfg with hfg | ⟨hs', -⟩
      · exact .inl (UInt32.lt_trans hef hfg)
      · exact .inl (hs' ▸ hef)
    · rcases hfg with hfg | ⟨hs', hfg⟩
      · exact .inl (hs ▸ hfg)
      · exact .inr ⟨hs.trans hs', UInt32.lt_trans hef hfg⟩
  lt_of_not_lt := by
    intro e f hlt hne
    obtain ⟨es, et⟩ := e
    obtain ⟨fs, ft⟩ := f
    simp only [lt_def, not_or, not_and] at hlt ⊢
    by_cases hs : es = fs
    · subst hs
      have ht : et ≠ ft := fun h => hne (h ▸ rfl)
      exact .inr ⟨rfl, (UInt32.lt_or_lt_of_ne ht).resolve_left (hlt.2 rfl)⟩
    · exact .inl ((UInt32.lt_or_lt_of_ne hs).resolve_left hlt.1)

end Edge

namespace Graph

/-- The nodes that are their own neighbours, in the order of the graph. -/
def selfLoops (g : Graph) : List UInt32 := (g.nodes.filter Node.hasSelfLoop).map (·.index)

/-- Whether the node at `i` exists and has `j` among its incoming neighbours. -/
def hasIncoming (g : Graph) (i j : UInt32) : Bool :=
  (g.get? i).any fun node => decide (j ∈ node.incoming)

/-- Whether the node at `i` exists and has `j` among its outgoing neighbours. -/
def hasOutgoing (g : Graph) (i j : UInt32) : Bool :=
  (g.get? i).any fun node => decide (j ∈ node.outgoing)

/-- The edges recorded on a node and not on their other end. -/
def unmirroredAt (g : Graph) (node : Node) : List Edge :=
  ((node.outgoing.toList.filter fun target => !g.hasIncoming target node.index).map
      fun target => ⟨node.index, target⟩) ++
    ((node.incoming.toList.filter fun source => !g.hasOutgoing source node.index).map
      fun source => ⟨source, node.index⟩)

/-- The edges that only one of their ends knows, each once, in ascending order. -/
def unmirroredEdges (g : Graph) : List Edge := Ascending.ofList (g.nodes.flatMap g.unmirroredAt)

end Graph

/-- Counts and faults of a graph. -/
structure Summary where
  nodes : Nat
  internal : Nat
  external : Nat
  edges : Nat
  selfLoops : List UInt32
  unmirroredEdges : List Edge
deriving DecidableEq, Repr

namespace Summary

/-- The counts and faults of a graph. -/
def of (g : Graph) : Summary where
  nodes := g.size
  internal := g.size - g.externalCount
  external := g.externalCount
  edges := g.edgeCount
  selfLoops := g.selfLoops
  unmirroredEdges := g.unmirroredEdges

/-- Whether a graph has no faults. -/
def isWellFormed (s : Summary) : Bool := s.selfLoops.isEmpty && s.unmirroredEdges.isEmpty

end Summary

end TraceGraph
