import TraceGraph.Node
import TraceGraph.Record.Field

/-!
# Writing records

The text of a record is the sequence of its tokens, each in front of its field's delimiter,
and for an external node one more brace. `Record.tokens` is that sequence, with the field of
each token.

Two things are read off it. The text of a record is the tokens with their delimiters behind
each other (`encode`). The writes that make up the text are the tokens and the delimiters
one by one (`pieces`), which matters where the room to write ends: then the last piece is
cut in two. That both are the same bytes is `flatten_pieces`, and for a sequence of records
with its end marker `flatten_allPieces`.

Proofs about the parser go through the sequence as well: a field of the parser consumes the
token of the same field, and what it expects next is the head of what is left.
-/

namespace TraceGraph

namespace Record

/-- A count and the members of a set. -/
def neighbourTokens (count neighbour : Field) (s : IndexSet) : List (Field × Bytes) :=
  (count, Decimal.digits s.size) ::
    s.toList.map fun i => (neighbour, FieldFormat.u32.write i)

/-- The arguments of one call behind their number. -/
def argumentTokens (arguments : Arguments) : List (Field × Bytes) :=
  (.argumentCount, Decimal.digits arguments.length) ::
    arguments.flatMap fun (position, value) =>
      [(.argumentPosition, FieldFormat.i32.write position),
        (.argumentValue, FieldFormat.payload.write value)]

/-- What distinguishes the two kinds of nodes. -/
def kindTokens : Kind UInt32 → List (Field × Bytes)
  | .internal mutation =>
    [(.externalFlag, FieldFormat.flag.write false), (.mutation, FieldFormat.u32.write mutation)]
  | .external calls =>
    (.externalFlag, FieldFormat.flag.write true) ::
      (.callCount, Decimal.digits calls.length) :: calls.flatMap argumentTokens

/-- The tokens of a record in order. -/
def tokens (r : Record UInt32) : List (Field × Bytes) :=
  [(.index, FieldFormat.u32.write r.index),
    (.a, FieldFormat.i32.write r.position.a),
    (.b, FieldFormat.i32.write r.position.b),
    (.bmod, FieldFormat.i32.write r.position.bmod),
    (.conditional, FieldFormat.i32.write r.conditional),
    (.nodeMod, FieldFormat.i32.write r.nodeMod),
    (.address, FieldFormat.u64.write r.address),
    (.executions, FieldFormat.u64.write r.executions)] ++
  neighbourTokens .incomingCount .incomingNeighbour r.incoming ++
  neighbourTokens .outgoingCount .outgoingNeighbour r.outgoing ++
  kindTokens r.kind

/-- The brace behind an external record; an internal one ends in the delimiter of its last field. -/
def terminator : Kind UInt32 → Bytes
  | .internal _ => []
  | .external _ => [closer]

/-- Tokens behind which their delimiters stand. -/
def delimited (tokens : List (Field × Bytes)) : Bytes :=
  tokens.flatMap fun (field, text) => text ++ [field.delimiter]

/-- The text of a record. -/
def encode (r : Record UInt32) : Bytes := delimited r.tokens ++ terminator r.kind

/-- The writes that make up the text of a record. -/
def pieces (r : Record UInt32) : List Bytes :=
  r.tokens.flatMap (fun (field, text) => [text, [field.delimiter]]) ++ [terminator r.kind]

/-- The pieces of a record put together are its text. -/
theorem flatten_pieces (r : Record UInt32) : r.pieces.flatten = r.encode := by
  have h (tokens : List (Field × Bytes)) :
      (tokens.flatMap fun (field, text) => [text, [field.delimiter]]).flatten =
        delimited tokens := by
    induction tokens with
    | nil => rfl
    | cons token tokens ih => simp_all [delimited]
  simp [pieces, encode, h]

/-- The texts of records behind each other, and the end marker. -/
def encodeAll (rs : List (Record UInt32)) : Bytes := rs.flatMap encode ++ endMarker

/-- The writes that make up a sequence of records and its end marker. -/
def allPieces (rs : List (Record UInt32)) : List Bytes := rs.flatMap pieces ++ [endMarker]

/-- The pieces of all records put together are the texts of the records and the end marker.
-/
theorem flatten_allPieces (rs : List (Record UInt32)) : (allPieces rs).flatten = encodeAll rs := by
  induction rs with
  | nil => rfl
  | cons r rs ih =>
    simp only [allPieces, encodeAll, List.flatMap_cons, List.append_assoc,
      List.flatten_append, flatten_pieces] at ih ⊢
    rw [ih]

end Record

namespace Node

/-- The text of a node's record. -/
def encode (node : Node) : Bytes := node.toRecord.unbound.encode

end Node

end TraceGraph
