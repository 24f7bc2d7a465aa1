import TraceGraph.Graph
import TraceGraph.Record.Parser

/-!
# Reading a graph from a stream

The nodes of a graph stand behind each other in the order of their indices, and the end
marker closes them. Reading stops at the first record that cannot be read or does not fit;
the nodes before it stay in the graph, which is returned with the error.

An error says what stands against the section. A record that cannot be read is named by the
offset at which it starts; a record that is read but is not the next one of the graph is
named by its index.

`Graph.extendTo` is the loop. It is well founded because every record that is read makes the
stream shorter (`Node.length_lt_of_scan?`), and it returns the stream behind what was read,
whose offset is logged. `Graph.extend` leaves the stream out, which is enough for all that
is said of the graph, and `Graph.extend_eq` is the equation that proofs rewrite with: one
scan decides whether the section ends here or goes on behind one more node.
-/

namespace TraceGraph

/-- Why a sequence of records was not read to its end. -/
inductive SectionError where
  /-- The record that starts at this offset cannot be read. -/
  | record (offset : Nat) (error : RecordError)
  /-- A record is not the next one of the graph. -/
  | order (error : GraphError)
deriving DecidableEq, Repr

namespace Graph

/-- Adds the records of a stream to a graph, up to the end marker or the first error, and returns
the stream behind what was read. -/
def extendTo (lookup : Lookup) (g : Graph) (s : ByteStream) :
    Except SectionError Unit × Graph × ByteStream :=
  match _h : Node.scan? lookup s with
  | (.error e, s') => (.error (.record s.offset e), g, s')
  | (.ok none, s') => (.ok (), g, s')
  | (.ok (some node), s') =>
    match g.insert node with
    | .error e => (.error (.order e), g, s')
    | .ok (_, g) => extendTo lookup g s'
termination_by s.rest.length
decreasing_by exact Node.length_lt_of_scan? _h

/-- Adds the records of a stream to a graph, whatever is behind them. -/
def extend (lookup : Lookup) (g : Graph) (s : ByteStream) : Except SectionError Unit × Graph :=
  ((extendTo lookup g s).1, (extendTo lookup g s).2.1)

/-- One scan decides whether the section ends here or goes on behind one more node. -/
theorem extend_eq (lookup : Lookup) (g : Graph) (s : ByteStream) :
    extend lookup g s =
      match Node.scan? lookup s with
      | (.error e, _) => (.error (.record s.offset e), g)
      | (.ok none, _) => (.ok (), g)
      | (.ok (some node), s') =>
        match g.insert node with
        | .error e => (.error (.order e), g)
        | .ok (_, g) => extend lookup g s' := by
  unfold extend
  rw [extendTo]
  split
  next h => rw [h]
  next h => rw [h]
  next node s' h =>
    rw [h]
    dsimp only
    cases g.insert node <;> rfl

end Graph

end TraceGraph
