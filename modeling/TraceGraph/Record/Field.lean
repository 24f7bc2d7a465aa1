import TraceGraph.Scan

/-!
# The fields of a record

Each field has a name for messages and a delimiter that ends its token. Both are functions
of the field, and the fields are a finite type, so that printer and parser cannot disagree
about them.

The delimiters are what gives a record its shape. The index is followed by an opening brace,
all other fields by a comma, and a record ends in a closing brace in one of two ways: the
brace is the delimiter of the mutation of an internal node, or a byte of its own behind the
calls of an external one.

Behind the last record the end marker stands where an index would be. It begins with a brace
and is no number, so it cannot be taken for an index.
-/

namespace TraceGraph

/-- The fields of a record in the order in which they can occur. -/
inductive Field where
  | index
  | a
  | b
  | bmod
  | conditional
  | nodeMod
  | address
  | executions
  | incomingCount
  | incomingNeighbour
  | outgoingCount
  | outgoingNeighbour
  | externalFlag
  | mutation
  | callCount
  | argumentCount
  | argumentPosition
  | argumentValue
deriving DecidableEq, Repr

namespace Field

/-- The name of a field in messages. -/
def name : Field → String
  | .index => "index"
  | .a => "a"
  | .b => "b"
  | .bmod => "bmod"
  | .conditional => "conditional"
  | .nodeMod => "node mod"
  | .address => "address"
  | .executions => "execution count"
  | .incomingCount => "incoming count"
  | .incomingNeighbour => "incoming neighbour"
  | .outgoingCount => "outgoing count"
  | .outgoingNeighbour => "outgoing neighbour"
  | .externalFlag => "external flag"
  | .mutation => "mutation index"
  | .callCount => "call count"
  | .argumentCount => "argument count"
  | .argumentPosition => "argument position"
  | .argumentValue => "argument value"

/-- The byte that ends the token of a field. -/
def delimiter : Field → UInt8
  | .index => opener
  | .mutation => closer
  | _ => comma

/-- Reads a field. -/
def scan {α : Type} (field : Field) (format : FieldFormat α) : Scan α :=
  Scan.field format field.delimiter field.name

/-- Reading a field never makes the stream longer. -/
theorem shrinks_scan {α : Type} (field : Field) (format : FieldFormat α) :
    (field.scan format).Shrinks :=
  Scan.shrinks_field _ _ _

end Field

/-- Stands in place of an index behind the last record: a brace, `N`, a comma and `D`. -/
def endMarker : Bytes := [125, 78, 44, 68]

end TraceGraph
