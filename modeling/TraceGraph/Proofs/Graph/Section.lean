import TraceGraph.Graph.Section
import TraceGraph.Proofs.Graph.Numbered
import TraceGraph.Proofs.Record.Stream

/-!
# Reading back the section of a graph

The nodes of a graph are written behind each other and closed by the end marker. They are
read by one scan for each node, and a scanned node is kept if it carries the next free
index. This module says what a scan contributes to the graph and what a graph is read back
as.

A record holds the data of a node but not its scratch state, so a written graph does not
come back as it was. What comes back is

> `Graph.reread`: the graph with every node as a scan returns it, that is with fresh scratch
> state.

It is the same graph in everything that is saved (`same_reread`), and therefore has the same
size and the same number of external nodes (`size_eq_of_same`, `externalCount_eq_of_same`);
these two are what the metadata of a trace are compared with. On the reading side,
`extend_of_scan?_none` and `extend_of_scan?_some` are the two ways in which a section ends or
goes on without an error. Together with what is known of a single scan they are what the theorems
on whole files need, so none of those unfolds the recursion again.
-/

namespace TraceGraph.Graph

variable {lookup : Lookup} {g : Graph}

/-- The graph that is read back in place of a written one. -/
def reread (g : Graph) : Graph := ⟨g.nodes.map Node.reread⟩

/-- Reading a node back keeps the record that it was written as. -/
theorem toRecord_reread (node : Node) : node.reread.toRecord = node.toRecord :=
  node.same_reread.symm

/-- A graph and what is read back in its place agree in all that is saved. -/
theorem same_reread (g : Graph) : Same g g.reread := by
  unfold Same reread
  rw [List.map_map]
  exact List.map_congr_left fun node _ => (toRecord_reread node).symm

/-- Graphs that agree in all that is saved have the same number of nodes. -/
theorem size_eq_of_same {h : Graph} (hsame : Same g h) : g.size = h.size := by
  have hlength := congrArg List.length hsame
  rwa [List.length_map, List.length_map] at hlength

/-- Whether a node is external is part of its record, so agreeing graphs have as many of
them. -/
theorem externalCount_eq_of_same {h : Graph} (hsame : Same g h) :
    g.externalCount = h.externalCount := by
  have hcount : ∀ nodes : List Node, nodes.countP (fun node => node.isExternal) =
      (nodes.map Node.toRecord).countP Record.isExternal := by
    intro nodes
    rw [List.countP_map]
    rfl
  unfold externalCount
  -- both counts are taken over the records, and these are the same
  rw [hcount, hcount, hsame]

theorem externalCount_le_size (g : Graph) : g.externalCount ≤ g.size := List.countP_le_length

/-- The end marker closes the section: the graph is what has been read so far. -/
theorem extend_of_scan?_none {s s' : ByteStream} (h : Node.scan? lookup s = (.ok none, s')) :
    extend lookup g s = (.ok (), g) := by
  rw [extend_eq, h]

/-- A node with the next free index is kept, and reading goes on behind it. -/
theorem extend_of_scan?_some {s s' : ByteStream} {node : Node}
    (h : Node.scan? lookup s = (.ok (some node), s')) (hindex : node.index = g.nextIndex) :
    extend lookup g s = extend lookup ⟨g.nodes ++ [node]⟩ s' := by
  rw [extend_eq, h]
  dsimp only
  unfold insert
  rw [if_pos hindex]

end TraceGraph.Graph
