import TraceGraph.Graph.Diagnosis
import TraceGraph.Number.BinaryFloat
import TraceGraph.Sphere

/-!
# What a command prints

A command that succeeds prints lines: the counts of a graph, with a line more for each kind
of fault that occurs, or the place of every node.

Coordinates are shown with three decimal places. A single-precision number is an integer
times a power of two, so its decimal text is rounded once and exactly: to the nearest
multiple of the last place, a tie to the even one (`FixedPlaces.format`). The sign of a zero
is kept, and what is no number has a name.

Each of the two reports is a function of the graph alone, apart from the name of the trace.
So what is printed can be compared with the graph that was loaded, line by line.
-/

namespace TraceGraph

/-! ## Numbers with a fixed number of decimal places -/

namespace FixedPlaces

/-- `n` as a decimal fraction with `places` digits behind the point. -/
def pointed (places n : Nat) : String :=
  let unit := Nat.pow 10 places
  let behind := String.ofList (Nat.toDigits 10 (n % unit))
  let zeros := String.ofList (List.replicate (places - behind.length) '0')
  toString (n / unit) ++ "." ++ zeros ++ behind

/-- A number with `places` digits behind the point. -/
def format (places : Nat) (x : Float32) : String :=
  let bits := x.toBits.toNat
  let sign := if bits >>> 31 = 1 then "-" else ""
  if x.isNaN then "NaN"
  else if x.isInf then sign ++ "inf"
  else
    let (m, power) := BinaryFormat.single.magnitude bits
    sign ++ pointed places (roundQuotient (m <<< power * Nat.pow 10 places) (1 <<< 149))

end FixedPlaces

/-- The index of a node and its place with three decimal places. -/
def layoutLine (entry : UInt32 × Point) : String :=
  let coordinate := FixedPlaces.format 3
  let p := entry.2
  s!"{toString entry.1.toNat} {coordinate p.x} {coordinate p.y} {coordinate p.z}\n"

/-! ## The counts of a trace -/

namespace Summary

/-- Texts with commas between them. -/
def listText (texts : List String) : String := "[" ++ String.intercalate ", " texts ++ "]"

/-- The line of the nodes that are their own neighbours, if there are any. -/
def selfLoopLine (s : Summary) : String :=
  if s.selfLoops.isEmpty then ""
  else "  self loops on: " ++ listText (s.selfLoops.map fun i => toString i.toNat) ++ "\n"

/-- The line of the edges that only one end knows, if there are any. -/
def unmirroredLine (s : Summary) : String :=
  if s.unmirroredEdges.isEmpty then ""
  else
    "  unmirrored edges: " ++
      listText (s.unmirroredEdges.map fun e =>
        s!"({toString e.source.toNat}, {toString e.target.toNat})") ++ "\n"

/-- The counts of a trace, and a line for each kind of fault that occurs. -/
def report (trace : String) (s : Summary) : String :=
  s!"{trace}: {s.nodes} nodes ({s.internal} internal, {s.external} external), {s.edges} edges\n" ++
    s.selfLoopLine ++ s.unmirroredLine

end Summary

end TraceGraph
