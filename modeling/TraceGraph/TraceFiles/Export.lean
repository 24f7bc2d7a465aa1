import TraceGraph.Graph.Diagnosis
import TraceGraph.Graph.Dot
import TraceGraph.TraceFiles

/-!
# Exporting a trace

A saved graph is loaded and its drawing is written to a file. Nothing is written unless the
load succeeds, and then the whole drawing is written at once. The file may be anywhere in
the tree.

The two ways to fail are kept apart, though a message does not show which one it was: a
failed load says what is wrong with the trace, and a failed write what the operating system
says of the file.

An export returns the summary of the graph that it drew, so that the caller can report on it
without loading it again.
-/

namespace TraceGraph

/-- Why a drawing is not written. -/
inductive ExportError where
  | load (error : LoadError)
  | write (error : OsError)
deriving DecidableEq, Repr

namespace ExportError

/-- What a message says of the failure. -/
def message : ExportError → String
  | .load e => e.message
  | .write e => e.message

end ExportError

namespace TraceFiles

/-- Writes the drawing of a saved graph and returns the summary of the graph, with what is logged of
the load. -/
def exportDot (files : TraceFiles) (lookup : Lookup) (output : Path) (t : FileTree) :
    Except ExportError (Summary × FileTree) × List LogRecord :=
  match files.loadLogged lookup t with
  | (.error e, log) => (.error (.load e), log)
  | (.ok g, log) =>
    match t.write output (Utf8.encode g.toDot) with
    | .error e => (.error (.write e), log)
    | .ok t => (.ok (.of g, t), log)

end TraceFiles

end TraceGraph
