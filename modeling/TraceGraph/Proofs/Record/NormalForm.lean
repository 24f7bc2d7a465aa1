import Mathlib.Data.List.Perm.Subperm
import TraceGraph.Proofs.Record.Parts
import TraceGraph.Proofs.Record.Stream

/-!
# The normal form of a stream

A stream can spell its nodes in many ways: with leading zeros and signs, and with neighbours
in any order and more than once. What is read from any of these spellings is well-formed
(`Node.WellFormed.of_scan?`), so it can be written again, and the text that is written is
the normal form of the stream.

> `Node.ReadsAll.normalForm`: the normal form is read as the same nodes and no others,
> writing those
> changes nothing, and a text that was written is its own normal form.

The first two follow from what is known of written streams. The third one is about streams
that were written for nodes of which nothing is assumed, so the lists of these nodes may be
too long for their counts, and it cannot be proved by reading the text back. Instead it is
shown of each grammar that where a value was written nothing but that value is at the front:

> `Undoes g write`: the value that is read is the one that was written, and its text ends
> where the
> written one does.

A list behind its count keeps this (`Undoes.counted`), since a count that is read is that of
the written list, which therefore does fit. Along the grammar this comes to the whole record
(`undoes_encode`), and by induction on what was written the records that are read are those
that were written (`ReadsAll.unbound_eq`).
-/

namespace TraceGraph

open Grammar

/-! ## What is read in front of a written value -/

namespace Grammar

variable {α : Type} {g : Grammar α} {write : α → Bytes}

/-- Where a value was written, nothing but that value is at the front, and its text ends where the
written one does. -/
def Undoes (g : Grammar α) (write : α → Bytes) : Prop :=
  ∀ ⦃a a' : α⦄ ⦃text rest rest' : Bytes⦄, g text a' → text ++ rest = write a ++ rest' →
    a' = a ∧ rest = rest'

/-- What a scan accepts and what is written for it cannot differ in length or value. -/
theorem undoes_of_accepts {x : Scan α} (hx : x.Accepts g) (hwrite : ∀ a, g (write a) a) :
    Undoes g write := by
  intro a a' text rest rest' h heq
  obtain ⟨-, ha, hrest⟩ := hx.split h (hwrite a) heq
  exact ⟨ha, hrest⟩

theorem undoes_u32 (field : Field) :
    Undoes (Closed unsigned32 field.delimiter)
      fun n => FieldFormat.u32.write n ++ [field.delimiter] :=
  undoes_of_accepts field.accepts_scan_u32 (closed_write_u32 field)

/-- Written texts behind each other are read one by one, as long as their number is known.
-/
theorem Undoes.repeated (h : Undoes g write) {as as' : List α} {texts rest rest' : Bytes}
    (hitems : Repeated g texts as') (hlength : as'.length = as.length)
    (heq : texts ++ rest = as.flatMap write ++ rest') : as' = as ∧ rest = rest' := by
  induction as generalizing as' texts with
  | nil =>
    obtain rfl := List.eq_nil_of_length_eq_zero hlength
    cases hitems
    exact ⟨rfl, heq⟩
  | cons a as ih =>
    cases hitems with
    | nil => cases hlength
    | cons head tail =>
      rw [List.flatMap_cons, List.append_assoc, List.append_assoc] at heq
      obtain ⟨rfl, hbehind⟩ := h head heq
      obtain ⟨rfl, hrest⟩ := ih tail (Nat.succ.inj hlength) hbehind
      exact ⟨rfl, hrest⟩

/-- A count that is read is that of the written list, which therefore fits its count. -/
theorem Undoes.counted (h : Undoes g write) :
    Undoes (Counted g) fun as => Decimal.digits as.length ++ [comma] ++ as.flatMap write := by
  intro as as' text rest rest' hcounted heq
  obtain @⟨_, texts, n, _, @⟨count, _, hcount⟩, hitems, hlength⟩ := hcounted
  have hcut : count ++ comma :: (texts ++ rest) =
      Decimal.digits as.length ++ comma :: (as.flatMap write ++ rest') := by
    simp only [List.append_assoc] at heq
    exact heq
  -- neither count holds a comma, so both end at the first one and are the same text
  have hdigits : comma ∉ Decimal.digits as.length :=
    fun hmem => (FieldFormat.digits_plain _ comma hmem).1 rfl
  obtain ⟨rfl, hbehind⟩ :=
    Bytes.eq_of_append_cons (noNumeral_comma.unsigned32 _ _ hcount) hdigits hcut
  have hread := (Decimal.unsigned?_eq_some_iff.2 hcount).symm.trans (Decimal.unsigned?_digits _)
  exact h.repeated hitems (hlength.trans (Option.some.inj hread)) hbehind

/-- A list that was read has a 32-bit count. -/
theorem Counted.length_lt {text : Bytes} {as : List α} (h : Counted g text as) :
    as.length < UInt32.size := by
  obtain @⟨_, _, n, _, -, -, hlength⟩ := h
  rw [hlength]
  exact n.toNat_lt_size

theorem Repeated.forall_mem {p : α → Prop} (hp : ∀ text a, g text a → p a) {texts : Bytes}
    {as : List α} (h : Repeated g texts as) : ∀ a ∈ as, p a := by
  induction h with
  | nil => nofun
  | cons head tail ih => exact List.forall_mem_cons.2 ⟨hp _ _ head, ih⟩

end Grammar

namespace Record

theorem undoes_listText : Undoes (Counted (Closed unsigned32 comma)) listText :=
  (undoes_u32 .incomingNeighbour).counted

/-- An argument as it is written. -/
def argumentText (argument : Int32 × Bytes) : Bytes :=
  FieldFormat.i32.write argument.1 ++ [comma] ++ (FieldFormat.payload.write argument.2 ++ [comma])

theorem delimited_argumentTokens (arguments : Arguments) :
    delimited (argumentTokens arguments) =
      Decimal.digits arguments.length ++ [comma] ++ arguments.flatMap argumentText := by
  unfold argumentTokens
  rw [delimited_cons, delimited_flatMap]
  congr 2
  funext argument
  show _ ++ [comma] ++ (_ ++ [comma] ++ []) = _
  rw [List.append_nil]
  rfl

theorem undoes_argumentText : Undoes Argument argumentText := by
  refine undoes_of_accepts accepts_scanArgument ?_
  intro (position, value)
  exact .mk (closed_write_i32 .argumentPosition position)
    (.mk (FieldFormat.read?_payload_eq_some_iff.1 (FieldFormat.payload.read?_write value)))

/-- Calls are lists of lists, so the counts are undone twice. -/
theorem undoes_callsText : Undoes (Counted (Counted Argument)) callsText := by
  unfold callsText
  simp only [delimited_argumentTokens]
  exact undoes_argumentText.counted.counted

/-- The flag that was written decides which kind is read. -/
theorem undoes_kindText : Undoes KindSpelled kindText := by
  intro kind kind' text rest rest' h heq
  cases kind with
  | internal mutation =>
    rw [kindText_internal] at heq
    cases h with
    | internal hmutation =>
      rw [List.append_assoc, List.append_assoc] at heq
      obtain ⟨rfl, hrest⟩ := undoes_u32 .mutation hmutation (List.append_cancel_left heq)
      exact ⟨rfl, hrest⟩
    | external => cases (List.cons.inj heq).1
  | external calls =>
    rw [kindText_external] at heq
    cases h with
    | internal => cases (List.cons.inj heq).1
    | external hcalls =>
      rw [List.append_assoc, List.append_assoc, List.append_assoc, List.append_assoc] at heq
      obtain ⟨rfl, hclosed⟩ := undoes_callsText hcalls (List.append_cancel_left heq)
      exact ⟨rfl, List.append_cancel_left hclosed⟩

/-- Where a record was written, that record is read. -/
theorem undoes_encode : Undoes Spelled encode := by
  intro r r' text rest rest' h heq
  rw [encode_eq, List.append_assoc] at heq
  obtain ⟨_, hlists, -, htail⟩ := h.exists_lists heq
  obtain ⟨hincoming, houtgoing, hkind⟩ := hlists
  -- the sets are written as their lists, which the lists that are read turn out to be
  simp only [List.append_assoc] at htail
  obtain ⟨rfl, htail⟩ := undoes_listText hincoming htail
  obtain ⟨rfl, htail⟩ := undoes_listText houtgoing htail
  obtain ⟨rfl, hrest⟩ := undoes_kindText hkind htail
  rw [ofList_toList, ofList_toList]
  exact ⟨rfl, hrest⟩

/-! ## What is read can be written -/

/-- A set has at most as many members as the list that it was made of. -/
theorem size_ofList_le (is : List UInt32) : (IndexSet.ofList is).size ≤ is.length :=
  ((IndexSet.ofList is).nodup_toList.subperm fun _ hi => IndexSet.mem_ofList.1 hi).length_le

/-- The lists of a record that was read fit their counts. -/
theorem Spelled.countable {text : Bytes} {r : Record UInt32} (h : Spelled text r) :
    r.Countable := by
  obtain ⟨-, ⟨-, -, -, -, -, -, -, hincoming, houtgoing, hkind⟩⟩ := h
  have hset : ∀ {text : Bytes} {is : List UInt32}, Counted (Closed unsigned32 comma) text is →
      (IndexSet.ofList is).size < UInt32.size :=
    fun hlist => Nat.lt_of_le_of_lt (size_ofList_le _) hlist.length_lt
  cases hkind with
  | internal => exact ⟨hset hincoming, hset houtgoing, Nat.zero_lt_succ _, nofun⟩
  | external hcalls =>
    refine ⟨hset hincoming, hset houtgoing, hcalls.length_lt, ?_⟩
    obtain ⟨-, hitems, -⟩ := hcalls
    exact hitems.forall_mem fun _ _ h => h.length_lt

variable {lookup : Lookup} {r : Record UInt32} {bound : Record Block}

/-- Binding a record keeps all that is written of it. -/
theorem Binds.unbound_eq (h : r.Binds lookup bound) : bound.unbound = r := by
  cases h with
  | @internal mutation _ hkind =>
    show { r with kind := .internal mutation } = r
    rw [← hkind]
  | @external calls hkind =>
    show { r with kind := .external calls } = r
    rw [← hkind]

/-- A record that was read and bound can be written again. -/
theorem Binds.countable (h : r.Binds lookup bound) (hr : r.Countable) : bound.Countable := by
  rw [← h.unbound_eq] at hr
  have hcalls : bound.unbound.kind.calls = bound.kind.calls :=
    Kind.calls_map Block.mutation bound.kind
  refine ⟨hr.incoming, hr.outgoing, ?_, ?_⟩
  · rw [← hcalls]
    exact hr.calls
  · rw [← hcalls]
    exact hr.arguments

end Record

namespace Node

open Record

variable {lookup : Lookup} {s s' : ByteStream} {node : Node} {nodes : List Node}

/-- Where a node is read, a text of its record was at the front. -/
theorem exists_spelled_of_scan? (h : scan? lookup s = (.ok (some node), s')) :
    ∃ text r, Spelled text r ∧ s.Past text s' ∧ r.Binds lookup node.toRecord := by
  obtain ⟨r, hscan, hbinds, -⟩ := scan?_eq_some_iff_record.1 h
  obtain ⟨text, hspelled, hpast⟩ := Record.scan?_eq_some_iff.1 hscan
  exact ⟨text, r, hspelled, hpast, hbinds⟩

/-- The scratch state of a node that was read is what a reader makes it. -/
theorem reread_of_scan? (h : scan? lookup s = (.ok (some node), s')) : node.reread = node := by
  obtain ⟨_, -, -, hruntime⟩ := scan?_eq_some_iff_record.1 h
  rw [reread_eq, ← hruntime]

/-- A node that was read can be written and found again through the same lookup. -/
theorem WellFormed.of_scan? (h : scan? lookup s = (.ok (some node), s')) :
    node.WellFormed lookup := by
  obtain ⟨_, r, hspelled, -, hbinds⟩ := exists_spelled_of_scan? h
  have hbound : ∀ block, node.kind = .internal block →
      lookup.resolve node.address block.mutation = .ok (some block.instruction) ∧
        block.instruction.address = node.address := by
    intro block hblock
    generalize node.toRecord = bound at hbinds hblock ⊢
    cases hbinds with
    | internal hkind hresolve haddress =>
      cases hblock
      exact ⟨hresolve, haddress⟩
    | external => cases hblock
  exact ⟨hbinds.countable hspelled.countable, fun block hblock => (hbound block hblock).1,
    fun block hblock => (hbound block hblock).2⟩

/-! ## Streams that are read to their end -/

/-- Repeated scans give these nodes and then find the end of the nodes. -/
def ReadsAll (lookup : Lookup) (s : ByteStream) (nodes : List Node) : Prop :=
  (scanMany lookup (nodes.length + 1) s).1 = (nodes.map fun node => .ok (some node)) ++ [.ok none]

theorem readsAll_nil_iff :
    ReadsAll lookup s [] ↔ ∃ s', scan? lookup s = (.ok none, s') := by
  cases hscan : scan? lookup s with
  | mk answer s' =>
    unfold ReadsAll
    rw [List.length_nil, scanMany_succ hscan]
    show [answer] = [.ok none] ↔ _
    simp

/-- Reading all of a stream is reading one node and then the rest. -/
theorem readsAll_cons_iff :
    ReadsAll lookup s (node :: nodes) ↔
      ∃ s', scan? lookup s = (.ok (some node), s') ∧ ReadsAll lookup s' nodes := by
  cases hscan : scan? lookup s with
  | mk answer s' =>
    unfold ReadsAll
    rw [List.length_cons, scanMany_succ hscan]
    simp only [List.map_cons, List.cons_append, List.cons.injEq, Prod.mk.injEq]
    refine ⟨?_, ?_⟩
    · intro h
      exact ⟨s', ⟨h.1, rfl⟩, h.2⟩
    · intro h
      obtain ⟨_, ⟨hanswer, rfl⟩, hnodes⟩ := h
      exact ⟨hanswer, hnodes⟩

/-- A stream is read as one list of nodes at most. -/
theorem ReadsAll.eq {nodes' : List Node} (h : ReadsAll lookup s nodes)
    (h' : ReadsAll lookup s nodes') : nodes = nodes' := by
  induction nodes generalizing s nodes' with
  | nil =>
    obtain ⟨_, hscan⟩ := readsAll_nil_iff.1 h
    cases nodes' with
    | nil => rfl
    | cons node' nodes' =>
      obtain ⟨_, hscan', -⟩ := readsAll_cons_iff.1 h'
      cases hscan.symm.trans hscan'
  | cons node nodes ih =>
    obtain ⟨_, hscan, hnodes⟩ := readsAll_cons_iff.1 h
    cases nodes' with
    | nil =>
      obtain ⟨_, hscan'⟩ := readsAll_nil_iff.1 h'
      cases hscan.symm.trans hscan'
    | cons node' nodes' =>
      obtain ⟨_, hscan', hnodes'⟩ := readsAll_cons_iff.1 h'
      cases hscan.symm.trans hscan'
      rw [ih hnodes hnodes']

/-- All nodes of a stream can be written again, and are as they are read back. -/
theorem ReadsAll.wellFormed (h : ReadsAll lookup s nodes) :
    ∀ node ∈ nodes, node.WellFormed lookup ∧ node.reread = node := by
  induction nodes generalizing s with
  | nil => nofun
  | cons node nodes ih =>
    obtain ⟨_, hscan, hnodes⟩ := readsAll_cons_iff.1 h
    exact List.forall_mem_cons.2 ⟨⟨.of_scan? hscan, reread_of_scan? hscan⟩, ih hnodes⟩

/-- The text that is written for well-formed nodes is read as these nodes. -/
theorem readsAll_encode (h : ∀ node ∈ nodes, node.WellFormed lookup) (offset : Nat) :
    ReadsAll lookup ⟨nodes.flatMap encode ++ endMarker, .complete, offset⟩
      (nodes.map reread) := by
  unfold ReadsAll
  rw [List.length_map, scanMany_add, scanMany_flatMap_append h,
    scanMany_succ (scan?_endMarker lookup _), List.map_map]
  rfl

/-- No end of the nodes is found where one was written. -/
theorem not_ended_of_encode {written : Node} {rest : Bytes}
    (hrest : s.rest = written.encode ++ rest) : scan? lookup s ≠ (.ok none, s') := by
  intro h
  have hcloser : ∃ behind, s.rest = closer :: behind := by
    rcases Record.scan?_eq_none_iff.1 (scan?_eq_none_iff.1 h) with hpast | ⟨-, hpast, -⟩
    · exact ⟨_, hpast.rest⟩
    · exact ⟨_, hpast.rest⟩
  obtain ⟨behind, hcloser⟩ := hcloser
  obtain ⟨d, ds, hdigits, hdigit⟩ := Decimal.exists_digits_eq_cons written.index.toNat
  have hencode : ∃ behind, written.encode = d :: behind := by
    unfold encode
    rw [encode_eq, delimited_leadingTokens]
    show ∃ behind, Decimal.digits written.index.toNat ++ _ ++ _ = _
    rw [hdigits]
    exact ⟨_, rfl⟩
  obtain ⟨_, hencode⟩ := hencode
  rw [hcloser, hencode] at hrest
  obtain rfl := (List.cons.inj hrest).1
  cases hdigit

/-- No node is found where the end marker was written. -/
theorem not_read_of_endMarker (hrest : s.rest = endMarker) :
    scan? lookup s ≠ (.ok (some node), s') := by
  intro h
  obtain ⟨text, r, hspelled, hpast, -⟩ := exists_spelled_of_scan? h
  obtain ⟨b, bytes, rfl, hb⟩ := hspelled.head?_ne
  have hmarker := hpast.rest.symm.trans hrest
  exact hb (List.cons.inj hmarker).1

/-- The records of the nodes that are read are those that were written. -/
theorem ReadsAll.unbound_eq {earlier : List Node} (h : ReadsAll lookup s nodes)
    (hrest : s.rest = earlier.flatMap encode ++ endMarker) :
    (nodes.map fun node => node.toRecord.unbound) =
      earlier.map fun node => node.toRecord.unbound := by
  -- on what was written: one scan takes the text of one written node, or the end marker
  induction earlier generalizing s nodes with
  | nil =>
    cases nodes with
    | nil => rfl
    | cons node nodes =>
      obtain ⟨_, hscan, -⟩ := readsAll_cons_iff.1 h
      exact absurd hscan (not_read_of_endMarker hrest)
  | cons written earlier ih =>
    rw [List.flatMap_cons, List.append_assoc] at hrest
    cases nodes with
    | nil =>
      obtain ⟨_, hscan⟩ := readsAll_nil_iff.1 h
      exact absurd hscan (not_ended_of_encode hrest)
    | cons node nodes =>
      obtain ⟨_, hscan, hnodes⟩ := readsAll_cons_iff.1 h
      obtain ⟨text, r, hspelled, hpast, hbinds⟩ := exists_spelled_of_scan? hscan
      obtain ⟨rfl, hbehind⟩ := undoes_encode hspelled (hpast.rest.symm.trans hrest)
      rw [List.map_cons, List.map_cons, hbinds.unbound_eq, ih hnodes hbehind]

/-- What was read from a stream is written in its normal form: the text is read as the same nodes
and no others, and they are written in the same way again. A stream that was written, whichever
nodes it was written for, is in normal form. -/
theorem ReadsAll.normalForm (h : ReadsAll lookup s nodes) :
    let written := fun nodes : List Node =>
      Record.encodeAll (nodes.map fun node => node.toRecord.unbound)
    (∀ again, ReadsAll lookup { rest := written nodes } again ↔ again = nodes) ∧
    (∀ again, ReadsAll lookup { rest := written nodes } again → written again = written nodes) ∧
    ∀ earlier, s.rest = written earlier → written nodes = s.rest := by
  intro written
  have hreread : nodes.map reread = nodes :=
    (List.map_congr_left fun node hnode => (h.wellFormed node hnode).2).trans (List.map_id nodes)
  have hagain : ReadsAll lookup { rest := written nodes } nodes := by
    have hreads := readsAll_encode (fun node hnode => (h.wellFormed node hnode).1) 0
    rw [hreread, ← Record.encodeAll_unbound] at hreads
    exact hreads
  refine ⟨?_, ?_, ?_⟩
  · intro again
    refine ⟨fun hother => hother.eq hagain, ?_⟩
    intro heq
    rw [heq]
    exact hagain
  · intro again hother
    rw [hother.eq hagain]
  · intro earlier hrest
    rw [hrest]
    refine congrArg Record.encodeAll (h.unbound_eq ?_)
    rw [hrest]
    exact Record.encodeAll_unbound earlier

/-- A block whose record has signs and leading zeros, and whose predecessors are out of order and
named twice. -/
theorem normalForm_repeatedPredecessor :
    let instruction := Instruction.decoded 4096 "cmp" "eax, 0" 3
    let lookup := (MemoryStore.empty.record instruction).2.lookup
    let text : Bytes :=
      [48, 48, 55, opener, 45, 48, comma, 43, 50, comma, 48, comma, 45, 49, comma, 48, 48,
       comma, 52, 48, 57, 54, comma, 43, 51, comma, 51, comma, 57, comma, 50, comma, 57,
       comma, 48, comma, 48, comma, 43, 48, closer]
    let normal : Bytes :=
      [55, opener, 48, comma, 50, comma, 48, comma, 45, 49, comma, 48, comma, 52, 48, 57,
       54, comma, 51, comma, 50, comma, 50, comma, 57, comma, 48, comma, 48, comma, 48,
       closer]
    let node : Node := { internal 7 ⟨0, 2, 0⟩ (.ofInstruction instruction) with
      conditional := -1, executions := 3, incoming := .ofList [2, 9] }
    ReadsAll lookup { rest := text ++ endMarker } [node] ∧
    Record.encodeAll [node.toRecord.unbound] = normal ++ endMarker ∧
    (∀ again, ReadsAll lookup { rest := normal ++ endMarker } again ↔ again = [node]) := by
  intro instruction lookup text normal node
  have hreads : ReadsAll lookup { rest := text ++ endMarker } [node] := by
    unfold ReadsAll
    decide +kernel
  have hnormal : Record.encodeAll [node.toRecord.unbound] = normal ++ endMarker := by decide
  have hagain := hreads.normalForm.1
  exact ⟨hreads, hnormal, hnormal ▸ hagain⟩

end Node

end TraceGraph
