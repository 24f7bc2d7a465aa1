import TraceGraph.Json.Value

/-!
# Graph metadata

Beside the node file of a saved graph stands a small JSON file with the format's version,
the time of the save and two counts that a load is checked against.

The file is written in a fixed form, one member on each line (`Metadata.render`), but any
JSON text with the four members is read, as a reader of JSON would have it: blanks and the
order of the members do not matter, other members are ignored, and an array of the four
values in order is taken for the object. A member that is missing or occurs twice is
refused, and so is a number that has a sign, a fraction or an exponent, or does not fit its
type.

Only the version that is written is accepted by a load; the reader accepts any, so that a
load can say which one it found.
-/

namespace TraceGraph

/-- What is noted about a saved graph. -/
structure Metadata where
  version : UInt32
  /-- Seconds since the start of 1970. -/
  createdAt : UInt64
  nodeCount : UInt64
  externalCount : UInt64
deriving DecidableEq, Repr

namespace Metadata

/-- The version that is written, and the only one that is read. -/
def currentVersion : UInt32 := 1

/-- The line of one member, behind which a comma stands unless it is the last. -/
def memberLine (key : String) (n : Nat) : String :=
  "  \"" ++ key ++ "\": " ++ String.ofList (Nat.toDigits 10 n)

/-- The text of the metadata file. -/
def render (m : Metadata) : String :=
  "\x7b\n" ++
    memberLine "version" m.version.toNat ++ ",\n" ++
    memberLine "created_at" m.createdAt.toNat ++ ",\n" ++
    memberLine "node_count" m.nodeCount.toNat ++ ",\n" ++
    memberLine "external_count" m.externalCount.toNat ++ "\n\x7d"

/-- A whole number that is not negative and less than `limit`. -/
def natural? (limit : Nat) : Json.Value → Option Nat
  | .number n => if n.integral && !n.negative && n.whole < limit then some n.whole else none
  | _ => none

/-- Metadata from the values of its members in order. -/
def ofMembers? (version createdAt nodeCount externalCount : Json.Value) : Option Metadata := do
  some {
    version := .ofNat (← natural? UInt32.size version)
    createdAt := .ofNat (← natural? UInt64.size createdAt)
    nodeCount := .ofNat (← natural? UInt64.size nodeCount)
    externalCount := .ofNat (← natural? UInt64.size externalCount) }

/-- The value of a key that occurs exactly once. -/
def unique? (key : String) (members : List (String × Json.Value)) : Option Json.Value :=
  match members.filter fun member => member.1 = key with
  | [member] => some member.2
  | _ => none

/-- Reads metadata from an object, whose other members are ignored, or from an array of the four
values in order. -/
def ofValue? : Json.Value → Option Metadata
  | .object members => do
    let members ← members.mapM fun (codes, value) => return (← Json.text? codes, value)
    ofMembers? (← unique? "version" members) (← unique? "created_at" members)
      (← unique? "node_count" members) (← unique? "external_count" members)
  | .array [version, createdAt, nodeCount, externalCount] =>
    ofMembers? version createdAt nodeCount externalCount
  | _ => none

/-- The metadata in the text of a file. -/
def parse? (text : String) : Option Metadata := do
  ofValue? (← Json.Value.parse? text.toList)

end Metadata

end TraceGraph
