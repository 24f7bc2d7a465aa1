import TraceGraph.Proofs.Record.Parts
import TraceGraph.Proofs.Record.Truncation

/-!
# Records with a flaw

When a record is damaged in one place, the complaint should be about that place. The text of
a record is made of parts: tokens that are closed by their delimiters, and a brace behind
those of an external node (`Record.parts`). A part has a flaw if something stands in its
place that its field does not take (`Part.Flaw`); the flaw comes with the complaint that is
due.

> `Follows x parts a`: the scan reads the texts of the parts as the value `a`, and if one of
> them has
> a flaw it stops behind the flaw and complains about it.

This is kept by running one scan after another (`Follows.bind`), because a flaw in the
second list of parts is only met when the first has been read whole. So it does not matter
what the flaw looks like to the fields behind it, what stands there, or what a lookup would
have answered. A field follows its token (`Field.follows_scan`), and along the definition of
the scan each piece of a record follows its parts, up to the whole record
(`Record.follows_scan?`).

The index is special. In its place the end marker may stand, so the scan of a record looks
at the token before it reads a number; where it is no end marker, the scan is that of an
ordinary field (`scan?_eq_scanRecord`).

The main result is `Node.scan?_flaw`: for every field of every record, whatever stands
behind it.
-/

namespace TraceGraph

open Grammar

/-! ## Parts and flaws -/

/-- The tokens that stand for a value of a field. In place of an index there may be the end
marker. -/
def Field.Takes (field : Field) (token : Bytes) : Prop :=
  match field with
  | .index => (∃ n, unsigned32 token n) ∨ token = endMarker
  | .a | .b | .bmod | .conditional | .nodeMod | .argumentPosition => ∃ n, signed32 token n
  | .address | .executions => ∃ n, unsigned64 token n
  | .incomingCount | .incomingNeighbour | .outgoingCount | .outgoingNeighbour | .mutation
  | .callCount | .argumentCount => ∃ n, unsigned32 token n
  | .externalFlag => token = [48] ∨ token = [49]
  | .argumentValue => ∃ value, payload token value

/-- A piece of a record that is read in one step. -/
inductive Part where
  | token (field : Field) (written : Bytes)
  | brace
deriving DecidableEq, Repr

namespace Part

/-- A token with its delimiter, or the brace behind the calls. -/
def text : Part → Bytes
  | .token field written => written ++ [field.delimiter]
  | .brace => [closer]

/-- What can stand in the place of a part without being taken, and the complaint about it. -/
inductive Flaw : Part → Bytes → RecordError → Prop
  | token {field : Field} {written wrong : Bytes} (hdelimiter : field.delimiter ∉ wrong)
      (htakes : ¬field.Takes wrong) :
      Flaw (.token field written) (wrong ++ [field.delimiter])
        (.malformed field.name (Utf8.lossy wrong))
  | brace {b : UInt8} (h : b ≠ closer) :
      Flaw .brace [b] (.malformed "record terminator" (Char.ofUInt8 b).toString)

end Part

namespace Record

def tokenParts (tokens : List (Field × Bytes)) : List Part :=
  tokens.map fun (field, token) => .token field token

/-- The part behind the tokens. -/
def endParts : Kind UInt32 → List Part
  | .internal _ => []
  | .external _ => [.brace]

/-- The parts of a record in order. -/
def parts (r : Record UInt32) : List Part := tokenParts r.tokens ++ endParts r.kind

theorem flatMap_tokenParts (tokens : List (Field × Bytes)) :
    (tokenParts tokens).flatMap Part.text = delimited tokens := by
  unfold tokenParts
  rw [List.flatMap_map]
  rfl

/-- The text of a record is that of its parts. -/
theorem encode_eq_parts (r : Record UInt32) : r.encode = r.parts.flatMap Part.text := by
  have hend : (endParts r.kind).flatMap Part.text = terminator r.kind := by
    cases r.kind with
    | internal mutation => rfl
    | external calls => rfl
  unfold encode parts
  rw [List.flatMap_append, flatMap_tokenParts, hend]

end Record

/-! ## Following parts -/

namespace Scan

variable {α β : Type}

/-- The scan reads the texts of the parts and nothing else, and if one of them has a flaw it stops
behind the flaw and complains about it. -/
structure Follows (x : Scan α) (parts : List Part) (a : α) : Prop where
  reads : ∀ s s', s.Past (parts.flatMap Part.text) s' → x s = (.ok a, s')
  refuses : ∀ before part after, parts = before ++ part :: after →
    ∀ text e, part.Flaw text e →
    ∀ s s', s.Past (before.flatMap Part.text ++ text) s' → x s = (.error e, s')

theorem Follows.congr {x : Scan α} {parts parts' : List Part} {a : α} (h : Follows x parts a)
    (hparts : parts = parts') : Follows x parts' a := hparts ▸ h

/-- A value has no parts and no flaws. -/
theorem follows_pure (a : α) : Follows (Pure.pure a) [] a where
  reads s s' hpast := by
    rw [ByteStream.past_nil_iff.1 hpast]
    rfl
  refuses before part after hparts := by
    cases before with
    | nil => cases hparts
    | cons first before => cases hparts

/-- A part of two lists behind each other is a part of one of them. -/
theorem exists_of_append_eq {parts parts' before after : List Part} {part : Part}
    (h : parts ++ parts' = before ++ part :: after) :
    (∃ behind, parts = before ++ part :: behind) ∨
      ∃ front, before = parts ++ front ∧ parts' = front ++ part :: after := by
  rcases List.append_eq_append_iff.1 h with ⟨front, hbefore, hparts'⟩ | ⟨behind, hparts, hafter⟩
  · exact .inr ⟨front, hbefore, hparts'⟩
  · cases behind with
    | nil =>
      rw [List.append_nil] at hparts
      exact .inr ⟨[], by rw [hparts, List.append_nil], hafter.symm⟩
    | cons first behind =>
      obtain ⟨rfl, -⟩ := List.cons.inj hafter
      exact .inl ⟨behind, hparts⟩

/-- The flaw is in the parts of the first scan or in those of the second. -/
theorem Follows.bind {x : Scan α} {f : α → Scan β} {parts parts' : List Part} {a : α} {b : β}
    (hx : Follows x parts a) (hf : Follows (f a) parts' b) :
    Follows (x >>= f) (parts ++ parts') b where
  reads s s' hpast := by
    rw [List.flatMap_append] at hpast
    obtain ⟨s₁, hpast₁, hpast₂⟩ := hpast.exists_of_append
    rw [bind_ok (hx.reads s s₁ hpast₁), hf.reads s₁ s' hpast₂]
  refuses before part after hparts text e hflaw s s' hpast := by
    rcases exists_of_append_eq hparts with ⟨behind, hfirst⟩ | ⟨front, rfl, hsecond⟩
    · exact bind_error (hx.refuses before part behind hfirst text e hflaw s s' hpast)
    · -- the flaw is met after all that `x` takes
      rw [List.flatMap_append, List.append_assoc] at hpast
      obtain ⟨s₁, hpast₁, hpast₂⟩ := hpast.exists_of_append
      rw [bind_ok (hx.reads s s₁ hpast₁)]
      exact hf.refuses front part after hsecond text e hflaw s₁ s' hpast₂

/-- A repeated scan follows the parts of its results. -/
theorem Follows.times {x : Scan α} {parts : α → List Part} {as : List α}
    (h : ∀ a ∈ as, Follows x (parts a) a) : Follows (x.times as.length) (as.flatMap parts) as := by
  induction as with
  | nil => exact follows_pure []
  | cons a as ih =>
    have hhead := h a (List.mem_cons_self ..)
    have htail := ih fun a' ha' => h a' (List.mem_cons_of_mem _ ha')
    refine (hhead.bind (htail.bind (follows_pure (a :: as)))).congr ?_
    rw [List.append_nil, List.flatMap_cons]

end Scan

/-! ## Fields -/

namespace Field

variable {α : Type}

/-- The format has no value for a token that the field does not take. -/
def Refuses (field : Field) (format : FieldFormat α) : Prop :=
  ∀ token, ¬field.Takes token → format.read? token = none

/-- A format refuses what a field does not take if it reads nothing else. -/
theorem refuses_of_read? {field : Field} {format : FieldFormat α}
    (h : ∀ token a, format.read? token = some a → field.Takes token) : field.Refuses format := by
  intro token htakes
  cases hread : format.read? token with
  | none => rfl
  | some a => exact absurd (h token a hread) htakes

/-- A number is refused by a field that does not take it; the other formats are alike. -/
theorem refuses_u32 (field : Field) (h : ∀ token n, unsigned32 token n → field.Takes token) :
    field.Refuses .u32 :=
  refuses_of_read? fun token n hread => h token n (FieldFormat.read?_u32_eq_some_iff.1 hread)

theorem refuses_u64 (field : Field) (h : ∀ token n, unsigned64 token n → field.Takes token) :
    field.Refuses .u64 :=
  refuses_of_read? fun token n hread => h token n (FieldFormat.read?_u64_eq_some_iff.1 hread)

theorem refuses_i32 (field : Field) (h : ∀ token n, signed32 token n → field.Takes token) :
    field.Refuses .i32 :=
  refuses_of_read? fun token n hread => h token n (FieldFormat.read?_i32_eq_some_iff.1 hread)

theorem refuses_payload : argumentValue.Refuses .payload :=
  refuses_of_read? fun _ value hread => ⟨value, FieldFormat.read?_payload_eq_some_iff.1 hread⟩

theorem refuses_flag : externalFlag.Refuses .flag := by
  refine refuses_of_read? fun token b hread => ?_
  rw [FieldFormat.read?_flag_eq_some_iff.1 hread]
  cases b with
  | true => exact .inr rfl
  | false => exact .inl rfl

/-- A written value never holds the delimiter that closes it. -/
theorem delimiter_not_mem_write (field : Field) (format : FieldFormat α) (a : α) :
    field.delimiter ∉ format.write a := by
  intro hmem
  obtain ⟨hcomma, hopener, hcloser⟩ := format.plain a _ hmem
  rcases field.delimiter_eq with h | h | h
  · exact hcomma h
  · exact hopener h
  · exact hcloser h

/-- A field follows its token. -/
theorem follows_scan {field : Field} {format : FieldFormat α} (h : field.Refuses format) (a : α) :
    (field.scan format).Follows [.token field (format.write a)] a where
  reads s s' hpast := by
    rw [List.flatMap_singleton] at hpast
    have hplain := field.delimiter_not_mem_write format a
    have htoken := ByteStream.token_eq_closed_iff.2 ⟨hplain, hpast⟩
    unfold scan Scan.field
    rw [Scan.bind_ok (Scan.token_eq_ok_iff.2 htoken)]
    exact Scan.accept_eq_ok_iff.2 ⟨rfl, format.read?_write a, rfl⟩
  refuses before part after hparts text e hflaw s s' hpast := by
    obtain ⟨rfl, hpart⟩ := List.append_eq_singleton_iff.1 hparts.symm |>.resolve_right nofun
    obtain ⟨rfl, -⟩ := List.cons.inj hpart
    obtain @⟨_, _, wrong, hdelimiter, htakes⟩ := hflaw
    have htoken := ByteStream.token_eq_closed_iff.2 ⟨hdelimiter, hpast⟩
    have hclosed : Scan.closedText field.name ⟨wrong, true⟩ s' = (.ok wrong, s') :=
      Scan.closedText_eq_ok_iff.2 ⟨rfl, rfl⟩
    unfold scan Scan.field
    rw [Scan.bind_ok (Scan.token_eq_ok_iff.2 htoken)]
    unfold Scan.accept
    rw [Scan.bind_ok hclosed, h wrong htakes]
    rfl

end Field

namespace Record

/-! ## Lists -/

/-- A count follows its token, provided that it is a 32-bit number. -/
theorem follows_count {count : Field} (hcount : count.Refuses .u32) {n : Nat}
    (h : n < UInt32.size) :
    (count.scan .u32).Follows [.token count (Decimal.digits n)] (.ofNat n) := by
  have hn : FieldFormat.u32.write (.ofNat n) = Decimal.digits n :=
    congrArg Decimal.digits (UInt32.toNat_ofNat_of_lt' h)
  have hfollows := Field.follows_scan hcount (.ofNat n)
  rwa [hn] at hfollows

/-- A count and as many items follow the token of the count and the parts of the items. -/
theorem follows_counted {α : Type} {count : Field} (hcount : count.Refuses .u32) {x : Scan α}
    {parts : α → List Part} {as : List α} (hlength : as.length < UInt32.size)
    (h : ∀ a ∈ as, x.Follows (parts a) a) :
    Scan.Follows (count.scan .u32 >>= fun n => x.times n.toNat)
      (.token count (Decimal.digits as.length) :: as.flatMap parts) as := by
  refine (follows_count hcount hlength).bind ?_
  rw [UInt32.toNat_ofNat_of_lt' hlength]
  exact Scan.Follows.times h

/-- A list of neighbours follows its count and the tokens of its members. -/
theorem follows_scanNeighbours {count neighbour : Field} (hcount : count.Refuses .u32)
    (hneighbour : neighbour.Refuses .u32) {s : IndexSet} (h : s.size < UInt32.size) :
    (scanNeighbours count neighbour).Follows (tokenParts (neighbourTokens count neighbour s))
      s := by
  have hlist : ((neighbour.scan .u32).times (UInt32.ofNat s.size).toNat).Follows
      (s.toList.flatMap fun i => [.token neighbour (FieldFormat.u32.write i)]) s.toList := by
    rw [UInt32.toNat_ofNat_of_lt' h]
    exact Scan.Follows.times fun i _ => Field.follows_scan hneighbour i
  have hset : Scan.Follows ((neighbour.scan .u32).times (UInt32.ofNat s.size).toNat >>= fun list =>
      Pure.pure (.ofList list)) _ (IndexSet.ofList s.toList) :=
    hlist.bind (Scan.follows_pure _)
  rw [ofList_toList] at hset
  refine Scan.Follows.congr ((follows_count hcount h).bind hset) ?_
  unfold tokenParts neighbourTokens
  rw [List.append_nil, List.map_cons, List.map_map, List.map_eq_flatMap]
  rfl

theorem follows_scanArgument (argument : Int32 × Bytes) :
    scanArgument.Follows
      [.token .argumentPosition (FieldFormat.i32.write argument.1),
        .token .argumentValue (FieldFormat.payload.write argument.2)] argument := by
  have hposition := Field.refuses_i32 .argumentPosition fun _ n h => ⟨n, h⟩
  exact (Field.follows_scan hposition argument.1).bind
    ((Field.follows_scan Field.refuses_payload argument.2).bind (Scan.follows_pure argument))

theorem follows_scanArguments {arguments : Arguments} (h : arguments.length < UInt32.size) :
    scanArguments.Follows (tokenParts (argumentTokens arguments)) arguments := by
  have hcount := Field.refuses_u32 .argumentCount fun _ n h => ⟨n, h⟩
  refine (follows_counted hcount h fun argument _ => follows_scanArgument argument).congr ?_
  unfold tokenParts argumentTokens
  rw [List.map_cons, List.map_flatMap]
  rfl

/-- Calls follow their number, and each of them the number of its arguments. -/
theorem follows_scanCalls {calls : List Arguments} (hcalls : calls.length < UInt32.size)
    (harguments : ∀ arguments ∈ calls, arguments.length < UInt32.size) :
    scanCalls.Follows
      (.token .callCount (Decimal.digits calls.length) ::
        tokenParts (calls.flatMap argumentTokens)) calls := by
  have hcount := Field.refuses_u32 .callCount fun _ n h => ⟨n, h⟩
  refine (follows_counted hcount hcalls fun arguments hmem =>
    follows_scanArguments (harguments arguments hmem)).congr ?_
  unfold tokenParts
  rw [List.map_flatMap]

/-! ## Records -/

/-- Any other byte in place of the brace is taken and complained about. -/
theorem follows_scanTerminator : scanTerminator.Follows [.brace] () where
  reads s s' hpast := (accepts_scanTerminator s () s').2 ⟨_, rfl, hpast⟩
  refuses before part after hparts text e hflaw s s' hpast := by
    obtain ⟨rfl, hpart⟩ := List.append_eq_singleton_iff.1 hparts.symm |>.resolve_right nofun
    obtain ⟨rfl, -⟩ := List.cons.inj hpart
    cases hflaw with
    | @brace b hb =>
      have hbyte := Scan.nextByte_eq_ok_iff.2 (ByteStream.nextByte_eq_some_iff.2 hpast)
      unfold scanTerminator
      rw [Scan.bind_ok hbyte]
      show (if b = closer then (Pure.pure () : Scan Unit) else Scan.fail _) s' = _
      rw [if_neg hb]
      rfl

/-- Both kinds follow what is written behind the lists. -/
theorem follows_scanKind {kind : Kind UInt32} (hcalls : kind.calls.length < UInt32.size)
    (harguments : ∀ arguments ∈ kind.calls, arguments.length < UInt32.size) :
    scanKind.Follows (tokenParts (kindTokens kind) ++ endParts kind) kind := by
  cases kind with
  | internal mutation =>
    have hmutation := Field.refuses_u32 .mutation fun _ n h => ⟨n, h⟩
    exact (Field.follows_scan Field.refuses_flag false).bind
      ((Field.follows_scan hmutation mutation).bind (Scan.follows_pure (Kind.internal mutation)))
  | external calls =>
    exact (Field.follows_scan Field.refuses_flag true).bind
      ((follows_scanCalls hcalls harguments).bind
        (follows_scanTerminator.bind (Scan.follows_pure (Kind.external calls))))

/-- The parts behind the index. -/
def bodyParts (r : Record UInt32) : List Part :=
  tokenParts r.leadingTokens.tail ++
    (tokenParts (neighbourTokens .incomingCount .incomingNeighbour r.incoming) ++
      (tokenParts (neighbourTokens .outgoingCount .outgoingNeighbour r.outgoing) ++
        (tokenParts (kindTokens r.kind) ++ endParts r.kind)))

/-- The parts of a record are its index and those behind it. -/
theorem parts_eq (r : Record UInt32) :
    r.parts = .token .index (FieldFormat.u32.write r.index) :: r.bodyParts := by
  unfold parts bodyParts tokenParts
  rw [tokens_eq]
  simp only [List.map_append, List.append_assoc]
  rfl

/-- The fields behind the index are read in the order in which they are written. -/
theorem follows_scanBody {r : Record UInt32} (h : r.Countable) :
    (scanBody r.index).Follows r.bodyParts r := by
  have ha := Field.refuses_i32 .a fun _ n h => ⟨n, h⟩
  have hb := Field.refuses_i32 .b fun _ n h => ⟨n, h⟩
  have hbmod := Field.refuses_i32 .bmod fun _ n h => ⟨n, h⟩
  have hconditional := Field.refuses_i32 .conditional fun _ n h => ⟨n, h⟩
  have hnodeMod := Field.refuses_i32 .nodeMod fun _ n h => ⟨n, h⟩
  have haddress := Field.refuses_u64 .address fun _ n h => ⟨n, h⟩
  have hexecutions := Field.refuses_u64 .executions fun _ n h => ⟨n, h⟩
  have hincoming := follows_scanNeighbours (Field.refuses_u32 .incomingCount fun _ n h => ⟨n, h⟩)
    (Field.refuses_u32 .incomingNeighbour fun _ n h => ⟨n, h⟩) h.incoming
  have houtgoing := follows_scanNeighbours (Field.refuses_u32 .outgoingCount fun _ n h => ⟨n, h⟩)
    (Field.refuses_u32 .outgoingNeighbour fun _ n h => ⟨n, h⟩) h.outgoing
  have hkind := follows_scanKind h.calls h.arguments
  refine Scan.Follows.congr ((Field.follows_scan ha r.position.a).bind
    ((Field.follows_scan hb r.position.b).bind
      ((Field.follows_scan hbmod r.position.bmod).bind
        ((Field.follows_scan hconditional r.conditional).bind
          ((Field.follows_scan hnodeMod r.nodeMod).bind
            ((Field.follows_scan haddress r.address).bind
              ((Field.follows_scan hexecutions r.executions).bind
                (hincoming.bind (houtgoing.bind (hkind.bind (Scan.follows_pure r)))))))))))
    ?_
  rw [List.append_nil]
  rfl

/-- Reads a record where no end marker is expected. -/
def scanRecord : Scan (Option (Record UInt32)) := do
  let index ← Field.index.scan .u32
  return some (← scanBody index)

/-- Only the end marker is not read as the beginning of a record. -/
theorem scan?_eq_scanRecord {s s' : ByteStream} {token : Bytes} (hdelimiter : opener ∉ token)
    (hmarker : token ≠ endMarker) (hpast : s.Past (token ++ [opener]) s') :
    scan? s = scanRecord s := by
  have htoken : Scan.token Field.index.delimiter s = (.ok ⟨token, true⟩, s') :=
    Scan.token_eq_ok_iff.2 (ByteStream.token_eq_closed_iff.2 ⟨hdelimiter, hpast⟩)
  have hfield : Field.index.scan .u32 s = Scan.accept .u32 Field.index.name ⟨token, true⟩ s' :=
    Scan.bind_ok htoken
  unfold scan? scanRecord
  rw [Scan.bind_ok htoken]
  rw [if_neg hmarker]
  cases haccept : Scan.accept .u32 Field.index.name ⟨token, true⟩ s' with
  | mk answer s₁ =>
    rw [haccept] at hfield
    cases answer with
    | ok index => rw [Scan.bind_ok haccept, Scan.bind_ok hfield]
    | error e => rw [Scan.bind_error haccept, Scan.bind_error hfield]

theorem follows_scanRecord {r : Record UInt32} (h : r.Countable) :
    scanRecord.Follows r.parts (some r) := by
  have hindex := Field.refuses_u32 .index fun _ n h => .inl ⟨n, h⟩
  refine Scan.Follows.congr ((Field.follows_scan hindex r.index).bind
    ((follows_scanBody h).bind (Scan.follows_pure (some r)))) ?_
  rw [List.append_nil, parts_eq]
  rfl

/-- A record that is written has no end marker in place of its index. -/
theorem write_index_ne_endMarker (r : Record UInt32) :
    FieldFormat.u32.write r.index ≠ endMarker := by
  intro h
  have hindex := FieldFormat.read?_u32_eq_some_iff.1 (FieldFormat.u32.read?_write r.index)
  exact not_unsigned_endMarker (h ▸ hindex)

/-- A record follows its parts: a flaw in the index is told from the end marker first. -/
theorem follows_scan? {r : Record UInt32} (h : r.Countable) : scan?.Follows r.parts (some r) := by
  have hrecord := follows_scanRecord h
  have hplain := Field.index.delimiter_not_mem_write .u32 r.index
  have hmarker := r.write_index_ne_endMarker
  refine ⟨?_, ?_⟩
  · intro s s' hpast
    rw [← hrecord.reads s s' hpast]
    rw [parts_eq, List.flatMap_cons] at hpast
    obtain ⟨s₁, hindex, -⟩ := hpast.exists_of_append
    exact scan?_eq_scanRecord hplain hmarker hindex
  · intro before part after hparts text e hflaw s s' hpast
    rw [← hrecord.refuses before part after hparts text e hflaw s s' hpast]
    rw [parts_eq] at hparts
    cases before with
    | nil =>
      obtain ⟨rfl, -⟩ := List.cons.inj hparts
      obtain @⟨_, _, wrong, hdelimiter, htakes⟩ := hflaw
      exact scan?_eq_scanRecord hdelimiter (fun hwrong => htakes (.inr hwrong)) hpast
    | cons first before =>
      obtain ⟨rfl, -⟩ := List.cons.inj hparts
      rw [List.flatMap_cons, List.append_assoc] at hpast
      obtain ⟨s₁, hindex, -⟩ := hpast.exists_of_append
      exact scan?_eq_scanRecord hplain hmarker hindex

end Record

namespace Node

variable {node : Node} {before after : List Part} {part : Part} {flaw : Bytes} {e : RecordError}

/-- A node whose text has a flaw in place of one of its parts is refused with the complaint about
that part, and the stream is left behind the flaw. -/
theorem scan?_flaw (h : node.toRecord.Countable)
    (hparts : node.toRecord.unbound.parts = before ++ part :: after) (hflaw : part.Flaw flaw e)
    (lookup : Lookup) (rest : Bytes) (ending : Ending) (offset : Nat) :
    let front := before.flatMap Part.text
    node.encode = front ++ part.text ++ after.flatMap Part.text ∧
    scan? lookup ⟨front ++ flaw ++ rest, ending, offset⟩ =
      (.error e, ⟨rest, ending, offset + (front ++ flaw).length⟩) := by
  intro front
  refine ⟨?_, ?_⟩
  · show node.toRecord.unbound.encode = _
    rw [Record.encode_eq_parts, hparts, List.flatMap_append, List.flatMap_cons, List.append_assoc]
  · have hpast := ByteStream.past_mk (front ++ flaw) rest ending offset
    exact scan?_of_record_error
      ((Record.follows_scan? h.unbound).refuses before part after hparts flaw e hflaw _ _ hpast)

/-- The value of the last argument is no payload, although it holds all that could end it. -/
theorem scan?_flaw_argumentValue :
    let called := ((external 7 {} 0x2000).pushCall [(0, [1])]).2
    let function := (called.pushCall [(1, [2, 3]), (2, [4])]).2
    let front := (function.toRecord.unbound.parts.take 19).flatMap Part.text
    let wrong : Bytes := [125, 78, 255, 123]
    scan? (.failing "") ⟨front ++ (wrong ++ [comma]) ++ endMarker, .failing "gone", 5⟩ =
      (.error (.malformed "argument value" (Utf8.lossy wrong)),
        ⟨endMarker, .failing "gone", 5 + (front ++ (wrong ++ [comma])).length⟩) := by
  intro called function front wrong
  have hparts : function.toRecord.unbound.parts =
      function.toRecord.unbound.parts.take 19 ++
        .token .argumentValue (Base64.encode [4]) :: [.brace] := by
    decide
  have htakes : ¬Field.argumentValue.Takes wrong := by
    intro htakes
    obtain ⟨value, hvalue⟩ := htakes
    have hread := FieldFormat.read?_payload_eq_some_iff.2 hvalue
    have hnone : FieldFormat.payload.read? wrong = none := by decide
    rw [hnone] at hread
    cases hread
  exact (scan?_flaw (by decide) hparts (.token (by decide) htakes) (.failing "") endMarker
    (.failing "gone") 5).2

end Node

end TraceGraph
