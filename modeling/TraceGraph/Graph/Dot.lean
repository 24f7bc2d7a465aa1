import TraceGraph.Graph
import TraceGraph.Text.Numerals

/-!
# Drawings in the DOT language

A drawing is a text in the DOT language. A graph becomes one line for each node, in order,
and one for each edge, taken from its source; an edge that only its target knows is not
drawn.

The looks of a node depend on its kind: external calls, blocks that end in a conditional
jump, and all other blocks (`Style.of`). Its label has two lines: the address with the
instruction, or with the number of captured calls, and how often the block was executed.

The text of an instruction comes from the traced program and can hold anything. It stands
between quotes, so quotes and backslashes in it are escaped, and a line feed becomes an
escape as well (`escape`). Nothing in a label can end the label or the line.
-/

namespace TraceGraph.Dot

/-- What a node looks like. -/
structure Style where
  shape : String
  fill : String
  line : String
deriving DecidableEq, Repr

/-- A call out of the traced program. -/
def Style.external : Style := ⟨"box", "#6c7086", "filled,dashed"⟩

/-- A block that the program may leave in two ways. -/
def Style.conditional : Style := ⟨"diamond", "#f9e2af", "filled"⟩

/-- Any other block. -/
def Style.plain : Style := ⟨"box", "#89b4fa", "filled"⟩

/-- External calls, blocks that end in a conditional jump and all others look different. -/
def Style.of (node : Node) : Style :=
  match node.kind with
  | .external _ => .external
  | .internal block => if block.instruction.conditional then .conditional else .plain

/-- The text of a node, in two lines. -/
def label (node : Node) : String :=
  let address := Hexadecimal.address node.address
  match node.kind with
  | .internal block =>
    s!"{address}: {block.instruction.mnemonic} {block.instruction.operands}\n" ++
      s!"x{node.executions.toNat}"
  | .external calls => s!"extern {address}\n{calls.length} call(s) captured"

/-- A character of a label between its quotes. -/
def escapeChar : Char → List Char
  | '\\' => ['\\', '\\']
  | '"' => ['\\', '"']
  | '\n' => ['\\', 'n']
  | c => [c]

/-- A label between its quotes. -/
def escape (text : String) : String := String.ofList (text.toList.flatMap escapeChar)

/-- The line of a node. -/
def nodeLine (node : Node) : String :=
  let style := Style.of node
  s!"    n{node.index.toNat} [label=\"" ++ escape (label node) ++ s!"\", shape={style.shape}" ++
    s!", style=\"{style.line}\", fillcolor=\"{style.fill}\"];"

/-- The line of an edge. -/
def edgeLine (source target : UInt32) : String :=
  s!"    n{source.toNat} -> n{target.toNat};"

/-- What stands before the nodes. -/
def header : List String :=
  ["digraph Trace \x7b", "    rankdir=TB;", "    node [fontname=\"Helvetica\", fontsize=11];", ""]

/-- The lines of a drawing. -/
def lines (g : Graph) : List String :=
  header ++ g.nodes.map nodeLine ++ [""] ++
    g.nodes.flatMap (fun node => node.outgoing.toList.map (edgeLine node.index)) ++ ["\x7d"]

end Dot

/-- The drawing of a graph. -/
def Graph.toDot (g : Graph) : String := String.intercalate "\n" (Dot.lines g)

end TraceGraph
