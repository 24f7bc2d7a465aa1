import TraceGraph.Bytes

/-!
# Writing with limited room

A sink takes bytes until its room is used up. It stands for a disk that is full or a
connection that breaks while a graph is written.

Writing comes in pieces. A piece that fits is taken whole; the one that does not fit is
taken in part, up to the last byte there is room for, and everything behind it is lost. What
was taken is therefore always a beginning of the whole, and whether it is all of it is the
other half of the outcome. Where the pieces were cut does not matter to the bytes that are
taken, only to how far a writer has come when it is told of the failure.
-/

namespace TraceGraph

/-- How many bytes can be written before writing fails; `none` if it never does. -/
structure Sink where
  room : Option Nat
deriving DecidableEq, Repr

/-- What became of a sequence of writes. -/
structure Sink.Outcome where
  /-- The bytes that were taken. -/
  written : Bytes
  /-- Whether every write was taken whole. -/
  complete : Bool
deriving DecidableEq, Repr

namespace Sink

/-- Writes one piece after the other up to the first one that does not fit. -/
def write : Sink → List Bytes → Outcome
  | _, [] => ⟨[], true⟩
  | ⟨none⟩, pieces => ⟨pieces.flatten, true⟩
  | ⟨some room⟩, piece :: pieces =>
    if piece.length ≤ room then
      let rest := write ⟨some (room - piece.length)⟩ pieces
      ⟨piece ++ rest.written, rest.complete⟩
    else ⟨piece.take room, false⟩

end Sink

end TraceGraph
