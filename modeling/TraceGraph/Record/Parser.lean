import TraceGraph.Node
import TraceGraph.Record.Field

/-!
# Reading records

A record is read in two steps. `Record.scan?` reads the text of one record, or the end
marker that stands where the next index would be, and asks nobody anything. `Node.scan?`
then binds the record through a lookup, with the stream already behind the record: whatever
the lookup answers, the next record is found at the same place.

The parser follows the fields in their order. Nothing is checked but what a field needs to
be read: a neighbour may be named twice or out of order, may be the node itself or may not
exist, and the index may be any. The counts in front of lists say how many fields follow,
and they are taken at their word, one field at a time, so a count that promises more fields
than there are fails at the first that is missing.

The second part of the module shows that every part of the parser leaves no more to be read
than it found, and that a whole record leaves less (`Record.length_lt_of_scan?`,
`Node.length_lt_of_scan?`). The proofs follow the definitions line by line, by the rules for
sequences and repetitions of scans.
-/

namespace TraceGraph

namespace Record

/-- A count and as many neighbours. -/
def scanNeighbours (count neighbour : Field) : Scan IndexSet := do
  let n ← count.scan .u32
  let list ← (neighbour.scan .u32).times n.toNat
  return .ofList list

/-- One captured argument. -/
def scanArgument : Scan (Int32 × Bytes) := do
  let position ← Field.argumentPosition.scan .i32
  let value ← Field.argumentValue.scan .payload
  return (position, value)

/-- The arguments of one call. -/
def scanArguments : Scan Arguments := do
  let n ← Field.argumentCount.scan .u32
  scanArgument.times n.toNat

/-- The calls of an external node. -/
def scanCalls : Scan (List Arguments) := do
  let n ← Field.callCount.scan .u32
  scanArguments.times n.toNat

/-- The brace behind the calls. -/
def scanTerminator : Scan Unit := do
  match ← Scan.nextByte with
  | none => Scan.fail (.malformed "record terminator" "")
  | some b =>
    if b = closer then pure ()
    else Scan.fail (.malformed "record terminator" (Char.ofUInt8 b).toString)

/-- What distinguishes the two kinds of nodes, up to the end of the record. -/
def scanKind : Scan (Kind UInt32) := do
  if ← Field.externalFlag.scan .flag then
    let calls ← scanCalls
    scanTerminator
    return .external calls
  else
    return .internal (← Field.mutation.scan .u32)

/-- Everything behind the index. -/
def scanBody (index : UInt32) : Scan (Record UInt32) := do
  let a ← Field.a.scan .i32
  let b ← Field.b.scan .i32
  let bmod ← Field.bmod.scan .i32
  let conditional ← Field.conditional.scan .i32
  let nodeMod ← Field.nodeMod.scan .i32
  let address ← Field.address.scan .u64
  let executions ← Field.executions.scan .u64
  let incoming ← scanNeighbours .incomingCount .incomingNeighbour
  let outgoing ← scanNeighbours .outgoingCount .outgoingNeighbour
  let kind ← scanKind
  return { index, position := ⟨a, b, bmod⟩, conditional, nodeMod, address, executions, incoming,
           outgoing, kind }

/-- The next record, or `none` for the end marker, which ends at the end of the stream or in a
brace. -/
def scan? : Scan (Option (Record UInt32)) := do
  let token ← Scan.token Field.index.delimiter
  if token.text = endMarker then
    return none
  else
    let index ← Scan.accept .u32 Field.index.name token
    return some (← scanBody index)

/-- The record with the block it refers to. -/
def bind (lookup : Lookup) (r : Record UInt32) : Except RecordError (Record Block) :=
  match r.kind with
  | .external calls => .ok { r with kind := .external calls }
  | .internal mutation =>
    match Block.bind? lookup r.address mutation with
    | .error failure => .error (.store failure)
    | .ok none => .error (.dangling r.address mutation)
    | .ok (some block) => .ok { r with kind := .internal block }

end Record

namespace Node

/-- The next node, or `none` for the end marker. -/
def scan? (lookup : Lookup) : Scan (Option Node) := do
  match ← Record.scan? with
  | none => return none
  | some r =>
    match r.bind lookup with
    | .error e => Scan.fail e
    | .ok r => return some (.ofRecord r)

end Node

/-! ## Every record makes the stream shorter -/

namespace Record

/-- A list of neighbours only consumes, whatever its count. -/
theorem shrinks_scanNeighbours (count neighbour : Field) :
    (scanNeighbours count neighbour).Shrinks :=
  (count.shrinks_scan _).bind fun _ => ((neighbour.shrinks_scan _).times _).bind fun _ =>
    Scan.shrinks_pure _

theorem shrinks_scanArgument : scanArgument.Shrinks :=
  (Field.shrinks_scan _ _).bind fun _ => (Field.shrinks_scan _ _).bind fun _ => Scan.shrinks_pure _

/-- The calls of an external node only consume, whatever the counts in them. -/
theorem shrinks_scanCalls : scanCalls.Shrinks :=
  (Field.shrinks_scan _ _).bind fun _ => Scan.Shrinks.times
    ((Field.shrinks_scan _ _).bind fun _ => shrinks_scanArgument.times _) _

theorem shrinks_scanTerminator : scanTerminator.Shrinks := by
  refine Scan.shrinks_nextByte.bind fun b => ?_
  split
  · exact Scan.shrinks_fail _
  · split
    · exact Scan.shrinks_pure _
    · exact Scan.shrinks_fail _

theorem shrinks_scanKind : scanKind.Shrinks := by
  refine (Field.shrinks_scan _ _).bind fun external => ?_
  split
  · exact shrinks_scanCalls.bind fun _ => shrinks_scanTerminator.bind fun _ => Scan.shrinks_pure _
  · exact (Field.shrinks_scan _ _).bind fun _ => Scan.shrinks_pure _

/-- The fields behind the index only consume. -/
theorem shrinks_scanBody (index : UInt32) : (scanBody index).Shrinks := by
  unfold scanBody
  iterate 7 refine (Field.shrinks_scan _ _).bind fun _ => ?_
  exact (shrinks_scanNeighbours _ _).bind fun _ => (shrinks_scanNeighbours _ _).bind fun _ =>
    shrinks_scanKind.bind fun _ => Scan.shrinks_pure _

/-- A record ends behind where it starts. -/
theorem length_lt_of_scan? {s s' : ByteStream} {r : Record UInt32}
    (h : scan? s = (.ok (some r), s')) : s'.rest.length < s.rest.length := by
  obtain ⟨t, s₁, htoken, h⟩ := Scan.exists_of_bind_ok h
  split at h
  next => cases (Prod.mk.inj h).1
  next =>
    obtain ⟨index, s₂, haccept, h⟩ := Scan.exists_of_bind_ok h
    obtain ⟨r', s₃, hbody, h⟩ := Scan.exists_of_bind_ok h
    obtain ⟨text, s₄, hclosed, -⟩ := Scan.exists_of_bind_ok haccept
    -- the index has to be closed, so its delimiter at least is taken
    have hshort : s₁.rest.length < s.rest.length := by
      rw [Scan.closedText] at hclosed
      split at hclosed
      next hc =>
        rw [Scan.token] at htoken
        split at htoken
        next t' s' heq =>
          cases htoken
          obtain ⟨text, closed⟩ := t
          exact ByteStream.length_token_lt ((show closed = true from hc) ▸ heq)
        next => cases (Prod.mk.inj htoken).1
      next => cases (Prod.mk.inj hclosed).1
    have h₂ := Scan.shrinks_accept .u32 Field.index.name t s₁
    have h₃ := shrinks_scanBody index s₂
    rw [haccept] at h₂
    rw [hbody] at h₃
    obtain ⟨-, rfl⟩ := Prod.mk.inj h
    exact Nat.lt_of_le_of_lt (Nat.le_trans h₃ h₂) hshort

end Record

namespace Node

/-- A node's record ends behind where it starts. -/
theorem length_lt_of_scan? {lookup : Lookup} {s s' : ByteStream} {node : Node}
    (h : scan? lookup s = (.ok (some node), s')) : s'.rest.length < s.rest.length := by
  obtain ⟨r, s₁, hr, h⟩ := Scan.exists_of_bind_ok h
  cases r with
  | none => cases (Prod.mk.inj h).1
  | some r =>
    cases hb : r.bind lookup with
    | error e =>
      simp only [hb] at h
      cases (Prod.mk.inj h).1
    | ok bound =>
      simp only [hb] at h
      obtain ⟨-, rfl⟩ := Prod.mk.inj h
      exact Record.length_lt_of_scan? hr

end Node

end TraceGraph
