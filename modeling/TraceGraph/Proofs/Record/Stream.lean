import TraceGraph.Disassembly.MemoryStore
import TraceGraph.Proofs.Record.Acceptance
import TraceGraph.Sink

/-!
# Streams of nodes

Nodes are written one behind the other and closed by the end marker. A node can be read back
if its lists fit their counts and the lookup has its instruction under the address and the
mutation that are written (`WellFormed`). What comes back is the node with its scratch state
made afresh (`reread`), which is the same node in all that is saved (`same_reread`).

> Step: whatever stands behind the text of a node, one scan takes exactly that text
> (`scan?_encode_append`).

This is where the grammar pays: the printed text is in it, and a scan takes no more than the
text of the grammar. So no argument in the record, however it looks, can move the end of the
scan.

> Run: as many scans as there are nodes take one text each (`scanMany_flatMap_append`), by
> induction
> over the nodes.

The main result `scanMany_encodeAll` adds what is in front of it and behind it: the pieces
that are written make up the text, and where the nodes end the scan meets the end marker
(`scan?_endMarker`) and says so.
-/

namespace TraceGraph

namespace Node

/-- The node can be written and found again: its lists fit their counts, and the lookup has its
instruction under the address and the mutation that are written. -/
structure WellFormed (lookup : Lookup) (node : Node) : Prop where
  countable : node.toRecord.Countable
  resolves : ∀ block, node.kind = .internal block →
    lookup.resolve node.address block.mutation = .ok (some block.instruction)
  addressed : ∀ block, node.kind = .internal block → block.instruction.address = node.address

/-- The node that is read back in place of a written one: what is saved is the same, and the scratch
state is made afresh. -/
def reread (node : Node) : Node := .ofRecord node.toRecord

theorem reread_eq (node : Node) : node.reread = ⟨node.toRecord, .fresh node.kind⟩ :=
  ofRecord_eq node.toRecord

/-- Writing and reading back changes nothing that is saved. -/
theorem same_reread (node : Node) : Same node node.reread := by
  rw [reread_eq]
  rfl

/-- A node without a block needs no lookup. -/
theorem WellFormed.of_external {lookup : Lookup} {node : Node} (hkind : node.isExternal = true)
    (h : node.toRecord.Countable) : node.WellFormed lookup := by
  have hblock : ∀ block, node.kind ≠ .internal block := by
    intro block hk
    unfold Record.isExternal at hkind
    rw [hk] at hkind
    cases hkind
  exact ⟨h, fun block hk => absurd hk (hblock block), fun block hk => absurd hk (hblock block)⟩

/-- The record of a well-formed node is bound to the instruction that the node has. -/
theorem WellFormed.binds {lookup : Lookup} {node : Node} (h : node.WellFormed lookup) :
    node.toRecord.unbound.Binds lookup node.toRecord := by
  obtain ⟨record, runtime⟩ := node
  obtain ⟨index, position, conditional, nodeMod, address, executions, incoming, outgoing, kind⟩ :=
    record
  cases kind with
  | internal block => exact .internal rfl (h.resolves block rfl) (h.addressed block rfl)
  | external calls => exact .external rfl

/-- A scan takes the text of a written node and nothing behind it. -/
theorem scan?_encode_append {lookup : Lookup} {node : Node} (h : node.WellFormed lookup)
    (rest : Bytes) (ending : Ending) (offset : Nat) :
    scan? lookup ⟨node.encode ++ rest, ending, offset⟩ =
      (.ok (some node.reread), ⟨rest, ending, offset + node.encode.length⟩) := by
  have hspelled := Record.spelled_encode h.countable.unbound
  have hpast := ByteStream.past_mk node.encode rest ending offset
  rw [reread_eq]
  exact scan?_eq_some_iff_record.2
    ⟨_, Record.scan?_eq_some_iff.2 ⟨_, hspelled, hpast⟩, h.binds, rfl⟩

/-- At the end marker a scan finds no node, and the stream is at its end. -/
theorem scan?_endMarker (lookup : Lookup) (offset : Nat) :
    scan? lookup ⟨endMarker, .complete, offset⟩ =
      (.ok none, ⟨[], .complete, offset + endMarker.length⟩) := by
  have htoken : Scan.token Field.index.delimiter ⟨endMarker, .complete, offset⟩ =
      (.ok ⟨endMarker, false⟩, ⟨[], .complete, offset + endMarker.length⟩) := by
    unfold Scan.token
    rw [ByteStream.token_of_not_mem (by decide)]
  have hscan : Record.scan? ⟨endMarker, .complete, offset⟩ =
      (.ok none, ⟨[], .complete, offset + endMarker.length⟩) := by
    unfold Record.scan?
    rw [Scan.bind_ok htoken]
    rfl
  unfold scan?
  rw [Scan.bind_ok hscan]
  rfl

/-! ## Repeated scans -/

/-- The answers of so many scans one after the other, and the stream behind the last of them. -/
def scanMany (lookup : Lookup) :
    (count : Nat) → ByteStream → List (Except RecordError (Option Node)) × ByteStream
  | 0, s => ([], s)
  | count + 1, s =>
    let (answer, s) := scan? lookup s
    let (answers, s) := scanMany lookup count s
    (answer :: answers, s)

theorem scanMany_succ {lookup : Lookup} {count : Nat} {s s' : ByteStream}
    {answer : Except RecordError (Option Node)} (h : scan? lookup s = (answer, s')) :
    scanMany lookup (count + 1) s =
      (answer :: (scanMany lookup count s').1, (scanMany lookup count s').2) := by
  rw [scanMany, h]

/-- Scans in two batches are the scans one after the other. -/
theorem scanMany_add (lookup : Lookup) (m n : Nat) (s : ByteStream) :
    scanMany lookup (m + n) s =
      ((scanMany lookup m s).1 ++ (scanMany lookup n (scanMany lookup m s).2).1,
        (scanMany lookup n (scanMany lookup m s).2).2) := by
  induction m generalizing s with
  | zero =>
    rw [Nat.zero_add]
    rfl
  | succ m ih =>
    rw [Nat.succ_add, scanMany_succ rfl, scanMany_succ rfl, ih]
    rfl

/-- As many scans as there are nodes take the texts of the nodes, whatever stands behind them. -/
theorem scanMany_flatMap_append {lookup : Lookup} {nodes : List Node}
    (h : ∀ node ∈ nodes, node.WellFormed lookup) (rest : Bytes) (ending : Ending) (offset : Nat) :
    scanMany lookup nodes.length ⟨nodes.flatMap encode ++ rest, ending, offset⟩ =
      (nodes.map fun node => .ok (some node.reread),
        ⟨rest, ending, offset + (nodes.flatMap encode).length⟩) := by
  induction nodes generalizing offset with
  | nil => rfl
  | cons node nodes ih =>
    have hnode := h node (List.mem_cons_self ..)
    have hnodes := fun n hn => h n (List.mem_cons_of_mem _ hn)
    -- the texts of the other nodes are what stands behind the text of the first one
    rw [List.flatMap_cons, List.append_assoc, List.length_cons,
      scanMany_succ (scan?_encode_append hnode _ ending offset), ih hnodes]
    rw [List.length_append, ← Nat.add_assoc]
    rfl

end Node

namespace Record

/-- The text of nodes is the text of their records, which hold no instructions. -/
theorem encodeAll_unbound (nodes : List Node) :
    encodeAll (nodes.map fun node => node.toRecord.unbound) =
      nodes.flatMap Node.encode ++ endMarker := by
  unfold encodeAll
  rw [List.flatMap_map]
  rfl

end Record

namespace Node

/-- The stream that is written for well-formed nodes is read back node by node and then ends. -/
theorem scanMany_encodeAll {lookup : Lookup} {nodes : List Node}
    (h : ∀ node ∈ nodes, node.WellFormed lookup) :
    let records := nodes.map fun node => node.toRecord.unbound
    let text := Record.encodeAll records
    (Sink.mk none).write (Record.allPieces records) = ⟨text, true⟩ ∧
    scanMany lookup (nodes.length + 1) { rest := text } =
      ((nodes.map fun node => .ok (some node.reread)) ++ [.ok none],
        ⟨[], .complete, text.length⟩) ∧
    (∀ k rest ending, k ≤ nodes.length →
      scanMany lookup k ⟨(nodes.take k).flatMap encode ++ rest, ending, 0⟩ =
        ((nodes.take k).map fun node => .ok (some node.reread),
          ⟨rest, ending, ((nodes.take k).flatMap encode).length⟩)) ∧
    ∀ node ∈ nodes, Same node node.reread ∧ node.reread.runtime = .fresh node.kind := by
  intro records text
  refine ⟨?_, ?_, ?_, ?_⟩
  · have hwritten : (Record.allPieces records).flatten = text := Record.flatten_allPieces records
    rw [← hwritten]
    -- a sink without a limit takes every piece
    cases Record.allPieces records with
    | nil => rfl
    | cons piece pieces => rfl
  · have htext : text = nodes.flatMap encode ++ endMarker := Record.encodeAll_unbound nodes
    rw [htext, scanMany_add, scanMany_flatMap_append h endMarker .complete 0,
      scanMany_succ (scan?_endMarker lookup _), List.length_append, Nat.zero_add]
    rfl
  · intro k rest ending hk
    have hwell : ∀ node ∈ nodes.take k, node.WellFormed lookup :=
      fun node hn => h node (List.mem_of_mem_take hn)
    have htake := scanMany_flatMap_append hwell rest ending 0
    rwa [List.length_take, Nat.min_eq_left hk, Nat.zero_add] at htake
  · intro node _
    refine ⟨node.same_reread, ?_⟩
    rw [reread_eq]

/-- Neither the text of the end marker in an argument nor bytes that are no text end a record. -/
theorem scanMany_encodeAll_markerArgument :
    let instruction := Instruction.decoded 4096 "jz" "0x1010" 2
    let lookup := (MemoryStore.empty.record instruction).2.lookup
    let block := internal 0 ⟨-1, 2, 0⟩ (.ofInstruction instruction)
    let function := ((external 1 {} 30464).pushCall [(-3, closer :: endMarker), (0, [0, 255])]).2
    (∀ node ∈ [block, function], node.WellFormed lookup) ∧
    (scanMany lookup 3
        { rest := Record.encodeAll [block.toRecord.unbound, function.toRecord.unbound] }).1 =
      [.ok (some block.reread), .ok (some function.reread), .ok none] := by
  intro instruction lookup block function
  have h : ∀ node ∈ [block, function], node.WellFormed lookup := by
    intro node hnode
    rcases List.mem_cons.1 hnode with hnode | hnode
    · subst hnode
      refine ⟨by decide, ?_, ?_⟩
      · intro b hk
        cases hk
        rfl
      · intro b hk
        cases hk
        rfl
    · rw [List.mem_singleton.1 hnode]
      exact .of_external rfl (by decide)
  exact ⟨h, congrArg Prod.fst (scanMany_encodeAll h).2.1⟩

end Node

end TraceGraph
