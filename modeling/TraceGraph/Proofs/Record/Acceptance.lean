import TraceGraph.Proofs.Scan.Acceptance

/-!
# Reading accepts the grammar of records

Reading a record is compared with the grammar of records. Each scan accepts the part of the
grammar that it is named for, and acceptance is kept by putting scans together, so the proof
goes along the definition of the scan from the fields to the whole record:

> `Record.scan?_eq_some_iff`: a record is read from exactly the streams that begin with one
> of its
> texts.

The fields come first. Their tokens are numbers and coded bytes, none of which holds a comma
or a brace (`Numeral.not_mem` and what is built on it), which is what makes the delimiters
reliable. A count and as many items behind it are one thing in the grammar and a repeated
scan in the program (`accepts_counted`). The index stands before an opening brace and is
never spelled like the end marker (`not_unsigned_endMarker`), so a record is not taken for
the end of the nodes.

Behind the text a lookup is asked whether the record can be bound. `Binds` says when it can,
and with it a node is read exactly as its record is:

> `Node.scan?_eq_some_iff_spelled`: the main result, for all streams and all lookups.
-/

namespace TraceGraph

open Grammar

/-! ## Tokens hold no delimiter -/

namespace Decimal

/-- Digits are all there is in a numeral. -/
theorem Numeral.not_mem {text : Bytes} {n : Nat} (h : Numeral text n) {b : UInt8}
    (hb : isDigit b = false) : b ∉ text := by
  intro hmem
  rw [h.isDigit_of_mem b hmem] at hb
  cases hb

theorem Unsigned.not_mem {text : Bytes} {n : Nat} (h : Unsigned text n) {b : UInt8}
    (hb : isDigit b = false) (hplus : b ≠ 43) : b ∉ text := by
  cases h with
  | plain h => exact h.not_mem hb
  | plus h => exact List.not_mem_cons_of_ne_of_not_mem hplus (h.not_mem hb)

theorem Signed.not_mem {text : Bytes} {n : Int} (h : Signed text n) {b : UInt8}
    (hb : isDigit b = false) (hplus : b ≠ 43) (hminus : b ≠ 45) : b ∉ text := by
  cases h with
  | plain h => exact h.not_mem hb
  | plus h => exact List.not_mem_cons_of_ne_of_not_mem hplus (h.not_mem hb)
  | minus h => exact List.not_mem_cons_of_ne_of_not_mem hminus (h.not_mem hb)

end Decimal

namespace Field

/-- Every field is closed by a comma or a brace. -/
theorem delimiter_eq (field : Field) :
    field.delimiter = comma ∨ field.delimiter = opener ∨ field.delimiter = closer := by
  cases field
  all_goals decide

/-- No delimiter can be part of a number. -/
theorem delimiter_not_digit (field : Field) :
    Decimal.isDigit field.delimiter = false ∧ field.delimiter ≠ 43 ∧ field.delimiter ≠ 45 := by
  rcases field.delimiter_eq with h | h | h
  all_goals
    rw [h]
    decide

/-! ## Fields -/

/-- A 32-bit field accepts a number in range, with its delimiter. The other formats are
accepted in the same way; they differ in why no token holds the delimiter. -/
theorem accepts_scan_u32 (field : Field) :
    (field.scan .u32).Accepts (Closed unsigned32 field.delimiter) := by
  obtain ⟨hdigit, hplus, -⟩ := field.delimiter_not_digit
  exact Scan.accepts_field (fun _ _ => FieldFormat.read?_u32_eq_some_iff)
    fun _ _ h => Decimal.Unsigned.not_mem h hdigit hplus

theorem accepts_scan_u64 (field : Field) :
    (field.scan .u64).Accepts (Closed unsigned64 field.delimiter) := by
  obtain ⟨hdigit, hplus, -⟩ := field.delimiter_not_digit
  exact Scan.accepts_field (fun _ _ => FieldFormat.read?_u64_eq_some_iff)
    fun _ _ h => Decimal.Unsigned.not_mem h hdigit hplus

theorem accepts_scan_i32 (field : Field) :
    (field.scan .i32).Accepts (Closed signed32 field.delimiter) := by
  obtain ⟨hdigit, hplus, hminus⟩ := field.delimiter_not_digit
  exact Scan.accepts_field (fun _ _ => FieldFormat.read?_i32_eq_some_iff)
    fun _ _ h => Decimal.Signed.not_mem h hdigit hplus hminus

/-- Coded bytes are written with letters, digits and three other characters, none of them a
delimiter. -/
theorem accepts_scan_payload (field : Field) :
    (field.scan .payload).Accepts (Closed payload field.delimiter) := by
  refine Scan.accepts_field (fun _ _ => FieldFormat.read?_payload_eq_some_iff) ?_
  intro text bytes h hmem
  have hplain := Base64.encode_plain bytes field.delimiter (h.eq_encode ▸ hmem)
  rcases field.delimiter_eq with hd | hd | hd
  · exact hplain.1 hd
  · exact hplain.2.1 hd
  · exact hplain.2.2 hd

/-- The flag has one text for each of its two values. -/
theorem accepts_scan_externalFlag :
    (externalFlag.scan .flag).Accepts
      fun text b => text = if b then [49, comma] else [48, comma] := by
  have hfield : (externalFlag.scan .flag).Accepts
      (Closed (fun text b => FieldFormat.flag.read? text = some b) comma) := by
    refine Scan.accepts_field (fun _ _ => Iff.rfl) ?_
    intro text b h
    rw [FieldFormat.read?_flag_eq_some_iff.1 h]
    cases b
    all_goals decide
  refine hfield.congr ?_
  intro text b
  refine ⟨?_, ?_⟩
  · intro htext
    obtain ⟨h⟩ := htext
    rw [FieldFormat.read?_flag_eq_some_iff.1 h]
    cases b
    all_goals rfl
  · intro htext
    subst htext
    have h : Closed (fun text b => FieldFormat.flag.read? text = some b) comma _ b :=
      .mk (FieldFormat.flag.read?_write b)
    cases b
    all_goals exact h

end Field

namespace Record

/-! ## Lists -/

/-- A count and as many items are read together. -/
theorem accepts_counted {α : Type} {count : Field} (hcount : count.delimiter = comma)
    {x : Scan α} {g : Grammar α} (h : x.Accepts g) :
    Scan.Accepts (count.scan .u32 >>= fun n => x.times n.toNat) (Counted g) := by
  refine (count.accepts_scan_u32.bind fun n => h.times n.toNat).congr ?_
  intro text as
  rw [hcount]
  refine ⟨?_, ?_⟩
  · intro htext
    obtain ⟨hn, hitems, hlength⟩ := htext
    exact .mk hn hitems hlength
  · intro htext
    obtain ⟨hn, hitems, hlength⟩ := htext
    exact .mk hn ⟨hitems, hlength⟩

/-- A list of neighbours stands for the set of its members, whatever their order. -/
theorem accepts_scanNeighbours (count neighbour : Field) (hcount : count.delimiter = comma)
    (hneighbour : neighbour.delimiter = comma) :
    (scanNeighbours count neighbour).Accepts
      fun text set => ∃ list, Counted (Closed unsigned32 comma) text list ∧ set = .ofList list := by
  have hitem := neighbour.accepts_scan_u32
  rw [hneighbour] at hitem
  have hlist := (count.accepts_scan_u32.bind fun n => (hitem.times n.toNat).bind fun list =>
    Scan.accepts_pure (IndexSet.ofList list))
  rw [hcount] at hlist
  refine hlist.congr ?_
  intro text set
  refine ⟨?_, ?_⟩
  · intro h
    obtain ⟨hn, hset⟩ := h
    obtain ⟨_, ⟨hitems, hlength⟩, rfl⟩ := sequence_empty_iff.1 hset
    exact ⟨_, .mk hn hitems hlength, rfl⟩
  · intro h
    obtain ⟨_, ⟨hn, hitems, hlength⟩, rfl⟩ := h
    exact .mk hn (sequence_empty_iff.2 ⟨_, ⟨hitems, hlength⟩, rfl⟩)

theorem accepts_scanArgument : scanArgument.Accepts Argument := by
  refine (Scan.Accepts.bind (Field.accepts_scan_i32 .argumentPosition) fun position =>
    (Field.accepts_scan_payload .argumentValue).bind fun value =>
      Scan.accepts_pure (position, value)).congr ?_
  intro text argument
  refine ⟨?_, ?_⟩
  · intro h
    obtain ⟨hposition, hpair⟩ := h
    obtain ⟨_, hvalue, rfl⟩ := sequence_empty_iff.1 hpair
    exact .mk hposition hvalue
  · intro h
    obtain ⟨hposition, hvalue⟩ := h
    exact .mk hposition (sequence_empty_iff.2 ⟨_, hvalue, rfl⟩)

theorem accepts_scanCalls : scanCalls.Accepts (Counted (Counted Argument)) :=
  accepts_counted rfl (accepts_counted rfl accepts_scanArgument)

/-! ## The end of a record -/

/-- The closing brace of an external record stands for nothing else. -/
theorem accepts_scanTerminator : scanTerminator.Accepts fun text _ => text = [closer] := by
  intro s u s'
  refine ⟨?_, ?_⟩
  · intro h
    obtain ⟨b, s₁, hbyte, h⟩ := Scan.exists_of_bind_ok h
    cases b with
    | none => cases (Prod.mk.inj h).1
    | some b =>
      change (if b = closer then (Pure.pure () : Scan Unit) else Scan.fail _) s₁ = _ at h
      by_cases hb : b = closer
      · rw [if_pos hb] at h
        obtain ⟨-, rfl⟩ := Prod.mk.inj h
        subst hb
        exact ⟨_, rfl, ByteStream.nextByte_eq_some_iff.1 (Scan.nextByte_eq_ok_iff.1 hbyte)⟩
      · rw [if_neg hb] at h
        cases (Prod.mk.inj h).1
  · intro h
    obtain ⟨_, rfl, hpast⟩ := h
    have hbyte := Scan.nextByte_eq_ok_iff.2 (ByteStream.nextByte_eq_some_iff.2 hpast)
    unfold scanTerminator
    rw [Scan.bind_ok hbyte]
    rfl

/-- The flag decides which of the two forms is read behind it. -/
theorem accepts_scanKind : scanKind.Accepts KindSpelled := by
  have hexternal := accepts_scanCalls.bind fun calls => accepts_scanTerminator.bind fun _ =>
    Scan.accepts_pure (Kind.external calls : Kind UInt32)
  have hinternal := (Field.accepts_scan_u32 .mutation).bind fun mutation =>
    Scan.accepts_pure (Kind.internal mutation)
  refine (Field.accepts_scan_externalFlag.bind fun external =>
    hexternal.ite hinternal external).congr ?_
  intro text kind
  refine ⟨?_, ?_⟩
  · intro h
    obtain @⟨_, _, external, _, rfl, htail⟩ := h
    cases external with
    | false =>
      obtain ⟨_, hmutation, rfl⟩ := sequence_empty_iff.1 htail
      exact .internal hmutation
    | true =>
      obtain ⟨hcalls, hend⟩ := htail
      obtain ⟨_, rfl, rfl⟩ := sequence_empty_iff.1 hend
      show KindSpelled ([49, comma] ++ (_ ++ [closer])) _
      rw [← List.append_assoc]
      exact .external hcalls
  · intro h
    cases h with
    | internal hmutation =>
      exact .mk (a := false) rfl (sequence_empty_iff.2 ⟨_, hmutation, rfl⟩)
    | external hcalls =>
      rw [List.append_assoc]
      exact .mk (a := true) rfl (.mk hcalls (sequence_empty_iff.2 ⟨(), rfl, rfl⟩))

/-! ## Records and nodes -/

/-- The fields behind the index are read in the order of the grammar. -/
theorem accepts_scanBody (index : UInt32) : (scanBody index).Accepts (BodySpelled index) := by
  have hincoming := accepts_scanNeighbours .incomingCount .incomingNeighbour rfl rfl
  have houtgoing := accepts_scanNeighbours .outgoingCount .outgoingNeighbour rfl rfl
  -- the scans one after the other accept a sequence that is nested to the right, and it has to be
  -- shown that its texts are those of the grammar
  apply Scan.Accepts.congr
  case h =>
    unfold scanBody
    apply (Field.accepts_scan_i32 .a).bind; intro a
    apply (Field.accepts_scan_i32 .b).bind; intro b
    apply (Field.accepts_scan_i32 .bmod).bind; intro bmod
    apply (Field.accepts_scan_i32 .conditional).bind; intro conditional
    apply (Field.accepts_scan_i32 .nodeMod).bind; intro nodeMod
    apply (Field.accepts_scan_u64 .address).bind; intro address
    apply (Field.accepts_scan_u64 .executions).bind; intro executions
    apply hincoming.bind; intro incoming
    apply houtgoing.bind; intro outgoing
    apply accepts_scanKind.bind; intro kind
    exact Scan.accepts_pure _
  intro text r
  refine ⟨?_, ?_⟩
  · intro h
    obtain ⟨ha, ⟨hb, ⟨hbmod, ⟨hconditional, ⟨hnodeMod, ⟨haddress, ⟨hexecutions,
      ⟨⟨_, hin, rfl⟩, ⟨⟨_, hout, rfl⟩, hend⟩⟩⟩⟩⟩⟩⟩⟩⟩ := h
    obtain ⟨_, hkind, rfl⟩ := sequence_empty_iff.1 hend
    have h : BodySpelled index _ _ :=
      .mk ha hb hbmod hconditional hnodeMod haddress hexecutions hin hout hkind
    simp only [List.append_assoc] at h ⊢
    exact h
  · intro h
    obtain ⟨ha, hb, hbmod, hconditional, hnodeMod, haddress, hexecutions, hin, hout, hkind⟩ := h
    simp only [List.append_assoc]
    refine .mk ha (.mk hb (.mk hbmod (.mk hconditional (.mk hnodeMod (.mk haddress
      (.mk hexecutions ?_))))))
    exact .mk ⟨_, hin, rfl⟩ (.mk ⟨_, hout, rfl⟩ (sequence_empty_iff.2 ⟨_, hkind, rfl⟩))

/-- No index is spelled like the end marker. -/
theorem not_unsigned_endMarker {n : Nat} : ¬Decimal.Unsigned endMarker n := by
  intro h
  exact h.not_mem (b := closer) (by decide) (by decide) (by decide)

/-- A record is read from exactly the streams that begin with one of its texts. -/
theorem scan?_eq_some_iff {s s' : ByteStream} {r : Record UInt32} :
    scan? s = (.ok (some r), s') ↔ ∃ text, Spelled text r ∧ s.Past text s' := by
  refine ⟨?_, ?_⟩
  · intro h
    obtain ⟨⟨token, closed⟩, s₁, htoken, h⟩ := Scan.exists_of_bind_ok h
    -- behind the end marker there is no record
    split at h
    next => cases (Prod.mk.inj h).1
    next =>
      obtain ⟨index, s₂, haccept, h⟩ := Scan.exists_of_bind_ok h
      obtain ⟨r', s₃, hbody, h⟩ := Scan.exists_of_bind_ok h
      obtain ⟨hr, rfl⟩ := Prod.mk.inj h
      obtain rfl := Option.some.inj (Except.ok.inj hr)
      obtain ⟨hclosed, hindex, rfl⟩ := Scan.accept_eq_ok_iff.1 haccept
      obtain rfl : closed = true := hclosed
      have hpast₁ := ByteStream.token_eq_closed_iff.1 (Scan.token_eq_ok_iff.1 htoken)
      obtain ⟨text, hspelled, hpast₂⟩ := (accepts_scanBody index _ _ _).1 hbody
      exact ⟨_, .mk (.mk (FieldFormat.read?_u32_eq_some_iff.1 hindex)) hspelled,
        hpast₁.2.trans hpast₂⟩
  · intro ⟨_, hspelled, hpast⟩
    obtain @⟨_, _, index, _, @⟨token, _, hindex⟩, hbody⟩ := hspelled
    obtain ⟨s₁, hpast₁, hpast₂⟩ := hpast.exists_of_append
    have hmem := hindex.not_mem (b := opener) (by decide) (by decide)
    have hmarker : token ≠ endMarker := fun h => not_unsigned_endMarker (h ▸ hindex)
    have htoken : Scan.token Field.index.delimiter s = (.ok ⟨token, true⟩, s₁) :=
      Scan.token_eq_ok_iff.2 (ByteStream.token_eq_closed_iff.2 ⟨hmem, hpast₁⟩)
    have haccept : Scan.accept .u32 Field.index.name ⟨token, true⟩ s₁ = (.ok index, s₁) :=
      Scan.accept_eq_ok_iff.2 ⟨rfl, FieldFormat.read?_u32_eq_some_iff.2 hindex, rfl⟩
    -- the token is an index, so the scan goes on to the fields
    unfold scan?
    rw [Scan.bind_ok htoken]
    rw [if_neg hmarker, Scan.bind_ok haccept]
    rw [Scan.bind_ok ((accepts_scanBody index _ _ _).2 ⟨_, hbody, hpast₂⟩)]
    rfl

/-! ## Binding -/

/-- The record with its block: that of an internal record is an instruction that the lookup has
under the record's address and mutation and that claims the same address. -/
inductive Binds (lookup : Lookup) : Record UInt32 → Record Block → Prop
  | internal {r : Record UInt32} {mutation : UInt32} {instruction : Instruction}
      (hkind : r.kind = .internal mutation)
      (hresolve : lookup.resolve r.address mutation = .ok (some instruction))
      (haddress : instruction.address = r.address) :
      Binds lookup r { r with kind := .internal ⟨mutation, instruction⟩ }
  | external {r : Record UInt32} {calls : List Arguments} (hkind : r.kind = .external calls) :
      Binds lookup r { r with kind := .external calls }

/-- A record is bound exactly if the lookup has the instruction that it refers to. -/
theorem bind_eq_ok_iff {lookup : Lookup} {r : Record UInt32} {bound : Record Block} :
    r.bind lookup = .ok bound ↔ r.Binds lookup bound := by
  refine ⟨?_, ?_⟩
  · intro h
    unfold bind at h
    split at h
    next calls hkind =>
      obtain rfl := Except.ok.inj h
      exact .external hkind
    next mutation hkind =>
      split at h
      next => cases h
      next => cases h
      next block hblock =>
        obtain rfl := Except.ok.inj h
        unfold Block.bind? at hblock
        split at hblock
        next => cases hblock
        next => cases hblock
        next instruction hresolve =>
          by_cases haddress : instruction.address = r.address
          · rw [if_pos haddress] at hblock
            obtain rfl := Option.some.inj (Except.ok.inj hblock)
            exact .internal hkind hresolve haddress
          · rw [if_neg haddress] at hblock
            cases hblock
  · intro h
    cases h with
    | external hkind =>
      unfold bind
      rw [hkind]
    | internal hkind hresolve haddress =>
      unfold bind
      rw [hkind]
      simp only [Block.bind?_of_resolve hresolve haddress]

end Record

/-- The scratch state of a node that was just read. -/
def Runtime.fresh {β : Type} : Kind β → Runtime
  | .internal _ => {}
  | .external calls => { calls := .ofNat (max 1 calls.length) }

namespace Node

/-- A node that is made of a record has no scratch state but the number of its calls. -/
theorem ofRecord_eq (r : Record Block) : ofRecord r = ⟨r, .fresh r.kind⟩ := by
  unfold ofRecord recountCalls
  cases hkind : r.kind with
  | internal block => rfl
  | external calls => rfl

/-- A node is read if its record is and the record can be bound. -/
theorem scan?_eq_some_iff_record {lookup : Lookup} {s s' : ByteStream} {node : Node} :
    scan? lookup s = (.ok (some node), s') ↔
      ∃ r, Record.scan? s = (.ok (some r), s') ∧ r.Binds lookup node.toRecord ∧
        node.runtime = .fresh node.kind := by
  refine ⟨?_, ?_⟩
  · intro h
    obtain ⟨r, s₁, hscan, h⟩ := Scan.exists_of_bind_ok h
    cases r with
    | none => cases (Prod.mk.inj h).1
    | some r =>
      cases hbind : r.bind lookup with
      | error e =>
        simp only [hbind] at h
        cases (Prod.mk.inj h).1
      | ok bound =>
        simp only [hbind] at h
        obtain ⟨hnode, rfl⟩ := Prod.mk.inj h
        obtain rfl := Option.some.inj (Except.ok.inj hnode)
        rw [ofRecord_eq]
        exact ⟨r, hscan, Record.bind_eq_ok_iff.1 hbind, rfl⟩
  · intro ⟨r, hscan, hbinds, hruntime⟩
    unfold scan?
    rw [Scan.bind_ok hscan]
    simp only [Record.bind_eq_ok_iff.2 hbinds, ofRecord_eq, ← hruntime]
    rfl

/-- The end of the nodes is the end of the records; no record is taken for it. -/
theorem scan?_eq_none_iff {lookup : Lookup} {s s' : ByteStream} :
    scan? lookup s = (.ok none, s') ↔ Record.scan? s = (.ok none, s') := by
  refine ⟨?_, ?_⟩
  · intro h
    obtain ⟨found, s₁, hscan, h⟩ := Scan.exists_of_bind_ok h
    cases found with
    | none =>
      obtain ⟨-, rfl⟩ := Prod.mk.inj h
      exact hscan
    | some r =>
      cases hbind : r.bind lookup with
      | error e =>
        simp only [hbind] at h
        cases (Prod.mk.inj h).1
      | ok bound =>
        simp only [hbind] at h
        cases (Prod.mk.inj h).1
  · intro h
    unfold scan?
    rw [Scan.bind_ok h]
    rfl

/-- A node is read from exactly the streams that begin with a text of its record, provided that the
record can be bound. Nothing behind the text is looked at. -/
theorem scan?_eq_some_iff_spelled {lookup : Lookup} {s s' : ByteStream} {node : Node} :
    scan? lookup s = (.ok (some node), s') ↔
      ∃ text r, Record.Spelled text r ∧ s.Past text s' ∧ r.Binds lookup node.toRecord ∧
        node.runtime = .fresh node.kind := by
  rw [scan?_eq_some_iff_record]
  refine ⟨?_, ?_⟩
  · intro ⟨r, hscan, hbinds, hruntime⟩
    obtain ⟨text, hspelled, hpast⟩ := Record.scan?_eq_some_iff.1 hscan
    exact ⟨text, r, hspelled, hpast, hbinds, hruntime⟩
  · intro ⟨text, r, hspelled, hpast, hbinds, hruntime⟩
    exact ⟨r, Record.scan?_eq_some_iff.2 ⟨text, hspelled, hpast⟩, hbinds, hruntime⟩

end Node

end TraceGraph
