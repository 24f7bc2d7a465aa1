import TraceGraph.Proofs.Record.Boundary

/-!
# The parts of a printed record

The text of a record is made of four parts: its leading fields, two lists of neighbours and
what distinguishes the kinds.

> `Record.encode_eq`: the text as a concatenation of these parts.

The theorem on records with a neighbour taken out changes one of the lists and leaves
everything in front of it. So what has to be known is how a text with printed leading fields
is read, whatever stands behind them. The fields are read one after the other, and each of
them splits the text at the same place as the printed field does (`Scan.Accepts.split`):

> `Spelled.exists_lists`: the record has the printed leading fields, and its lists and its
> kind are
> at the front of what is behind them.

`spelled_leadingTokens_append_iff` is the form in which this is used: reading the whole text
is reading the lists and the kind (`ListsSpelled`). The lists are in turn separated by how
they are accepted (`accepts_neighbours`).
-/

namespace TraceGraph

open Grammar

namespace Record

/-! ## Lists and kinds -/

/-- The tokens in front of the lists. -/
def leadingTokens (r : Record UInt32) : List (Field × Bytes) :=
  [(.index, FieldFormat.u32.write r.index),
    (.a, FieldFormat.i32.write r.position.a),
    (.b, FieldFormat.i32.write r.position.b),
    (.bmod, FieldFormat.i32.write r.position.bmod),
    (.conditional, FieldFormat.i32.write r.conditional),
    (.nodeMod, FieldFormat.i32.write r.nodeMod),
    (.address, FieldFormat.u64.write r.address),
    (.executions, FieldFormat.u64.write r.executions)]

/-- Neighbours as they are written. -/
def listed (is : List UInt32) : Bytes := is.flatMap fun i => FieldFormat.u32.write i ++ [comma]

/-- A list of neighbours behind its count. -/
def listText (is : List UInt32) : Bytes := Decimal.digits is.length ++ [comma] ++ listed is

/-- The calls of an external record as they are written. -/
def callsText (calls : List Arguments) : Bytes :=
  Decimal.digits calls.length ++ [comma] ++
    calls.flatMap fun arguments => delimited (argumentTokens arguments)

/-- What is written behind the lists of a record. -/
def kindText (kind : Kind UInt32) : Bytes := delimited (kindTokens kind) ++ terminator kind

theorem tokens_eq (r : Record UInt32) :
    r.tokens = r.leadingTokens ++
      (neighbourTokens .incomingCount .incomingNeighbour r.incoming ++
        (neighbourTokens .outgoingCount .outgoingNeighbour r.outgoing ++ kindTokens r.kind)) := by
  unfold tokens
  rw [List.append_assoc, List.append_assoc]
  rfl

theorem kindText_internal (mutation : UInt32) :
    kindText (.internal mutation) =
      [48, comma] ++ (FieldFormat.u32.write mutation ++ [closer]) := by
  show [48, comma] ++ (FieldFormat.u32.write mutation ++ [closer] ++ []) ++ [] = _
  rw [List.append_nil, List.append_nil]

theorem kindText_external (calls : List Arguments) :
    kindText (.external calls) = [49, comma] ++ (callsText calls ++ [closer]) := by
  unfold callsText
  rw [← delimited_flatMap, ← List.append_assoc]
  rfl

theorem delimited_map_neighbour {neighbour : Field} (h : neighbour.delimiter = comma)
    (is : List UInt32) :
    delimited (is.map fun i => (neighbour, FieldFormat.u32.write i)) = listed is := by
  unfold delimited listed
  rw [List.flatMap_map]
  simp only [h]

/-- A set of neighbours is written as the list of its members. -/
theorem delimited_neighbourTokens (count neighbour : Field) (hcount : count.delimiter = comma)
    (hneighbour : neighbour.delimiter = comma) (s : IndexSet) :
    delimited (neighbourTokens count neighbour s) = listText s.toList := by
  unfold neighbourTokens
  rw [delimited_cons, hcount, delimited_map_neighbour hneighbour]
  rfl

/-- The text of a record is its leading fields, its two lists and its kind. -/
theorem encode_eq (r : Record UInt32) :
    r.encode = delimited r.leadingTokens ++
      (listText r.incoming.toList ++ (listText r.outgoing.toList ++ kindText r.kind)) := by
  unfold encode kindText
  rw [tokens_eq, delimited_append, delimited_append, delimited_append,
    delimited_neighbourTokens .incomingCount .incomingNeighbour rfl rfl,
    delimited_neighbourTokens .outgoingCount .outgoingNeighbour rfl rfl]
  simp only [List.append_assoc]

/-- Neighbours are read behind their count, on either side of a record. -/
theorem accepts_neighbours : Scan.Accepts
    (Field.incomingCount.scan .u32 >>= fun n => (Field.incomingNeighbour.scan .u32).times n.toNat)
    (Counted (Closed unsigned32 comma)) :=
  accepts_counted rfl (Field.accepts_scan_u32 .incomingNeighbour)

/-! ## What the leading fields leave to be read -/

/-- The lists and the kind of a record, behind leading fields that are those of `r`. -/
inductive ListsSpelled (r : Record UInt32) : Bytes → Record UInt32 → Prop
  | mk {t₁ t₂ t₃ : Bytes} {incoming outgoing : List UInt32} {kind : Kind UInt32}
      (hincoming : Counted (Closed unsigned32 comma) t₁ incoming)
      (houtgoing : Counted (Closed unsigned32 comma) t₂ outgoing) (hkind : KindSpelled t₃ kind) :
      ListsSpelled r (t₁ ++ (t₂ ++ t₃))
        { r with incoming := .ofList incoming, outgoing := .ofList outgoing, kind }

/-- The leading fields one by one, as they are taken off from the left. -/
theorem delimited_leadingTokens (r : Record UInt32) (tail : Bytes) :
    delimited r.leadingTokens ++ tail =
      (FieldFormat.u32.write r.index ++ [opener]) ++
      ((FieldFormat.i32.write r.position.a ++ [comma]) ++
      ((FieldFormat.i32.write r.position.b ++ [comma]) ++
      ((FieldFormat.i32.write r.position.bmod ++ [comma]) ++
      ((FieldFormat.i32.write r.conditional ++ [comma]) ++
      ((FieldFormat.i32.write r.nodeMod ++ [comma]) ++
      ((FieldFormat.u64.write r.address ++ [comma]) ++
      ((FieldFormat.u64.write r.executions ++ [comma]) ++ tail))))))) := by
  show _ ++ [opener] ++ (_ ++ [comma] ++ (_ ++ [comma] ++ (_ ++ [comma] ++ (_ ++ [comma] ++
    (_ ++ [comma] ++ (_ ++ [comma] ++ (_ ++ [comma] ++ []))))))) ++ tail = _
  simp only [List.append_assoc, List.append_nil]

/-- A record at the front of a text with printed leading fields has these fields, and its lists and
its kind are at the front of what stands behind them. -/
theorem Spelled.exists_lists {r r' : Record UInt32} {text rest tail : Bytes} (h : Spelled text r')
    (heq : text ++ rest = delimited r.leadingTokens ++ tail) :
    ∃ lists, ListsSpelled r lists r' ∧ text = delimited r.leadingTokens ++ lists ∧
      lists ++ rest = tail := by
  -- once it is known where the lists start, what stands in front of them is what is printed
  have hcancel : ∀ {lists}, lists ++ rest = tail → text = delimited r.leadingTokens ++ lists := by
    intro lists hlists
    rw [← hlists, ← List.append_assoc] at heq
    exact List.append_cancel_right heq
  have htext := heq.symm
  rw [delimited_leadingTokens] at htext
  obtain @⟨t₀, _, _, _, hindex, @⟨t₁, t₂, t₃, t₄, t₅, t₆, t₇, t₈, t₉, t₁₀, _, _, _, _, _, _, _,
    _, _, _, ha, hb, hbmod, hconditional, hnodeMod, haddress, hexecutions, hincoming, houtgoing,
    hkind⟩⟩ := h
  have hnested : t₀ ++ (t₁ ++ t₂ ++ t₃ ++ t₄ ++ t₅ ++ t₆ ++ t₇ ++ t₈ ++ t₉ ++ t₁₀) ++ rest =
      t₀ ++ (t₁ ++ (t₂ ++ (t₃ ++ (t₄ ++ (t₅ ++ (t₆ ++ (t₇ ++
        (t₈ ++ (t₉ ++ t₁₀) ++ rest)))))))) := by
    simp only [List.append_assoc]
  rw [hnested] at htext
  obtain ⟨-, rfl, htext⟩ :=
    (Field.accepts_scan_u32 .index).split (closed_write_u32 .index _) hindex htext
  obtain ⟨-, rfl, htext⟩ := (Field.accepts_scan_i32 .a).split (closed_write_i32 .a _) ha htext
  obtain ⟨-, rfl, htext⟩ := (Field.accepts_scan_i32 .b).split (closed_write_i32 .b _) hb htext
  obtain ⟨-, rfl, htext⟩ :=
    (Field.accepts_scan_i32 .bmod).split (closed_write_i32 .bmod _) hbmod htext
  obtain ⟨-, rfl, htext⟩ := (Field.accepts_scan_i32 .conditional).split
    (closed_write_i32 .conditional _) hconditional htext
  obtain ⟨-, rfl, htext⟩ :=
    (Field.accepts_scan_i32 .nodeMod).split (closed_write_i32 .nodeMod _) hnodeMod htext
  obtain ⟨-, rfl, htext⟩ :=
    (Field.accepts_scan_u64 .address).split (closed_write_u64 .address _) haddress htext
  obtain ⟨-, rfl, htext⟩ :=
    (Field.accepts_scan_u64 .executions).split (closed_write_u64 .executions _) hexecutions htext
  exact ⟨_, .mk hincoming houtgoing hkind, hcancel htext.symm, htext.symm⟩

/-- Behind printed leading fields, a record is read with the same leading fields. -/
theorem spelled_leadingTokens_append_iff {r r' : Record UInt32} {tail : Bytes} :
    Spelled (delimited r.leadingTokens ++ tail) r' ↔ ListsSpelled r tail r' := by
  refine ⟨?_, ?_⟩
  · intro h
    obtain ⟨lists, hlists, htext, -⟩ := h.exists_lists (List.append_nil _)
    rwa [List.append_cancel_left htext]
  · intro h
    obtain ⟨hincoming, houtgoing, hkind⟩ := h
    have hspelled := Spelled.mk (closed_write_u32 .index r.index)
      (.mk (closed_write_i32 .a r.position.a) (closed_write_i32 .b r.position.b)
        (closed_write_i32 .bmod r.position.bmod) (closed_write_i32 .conditional r.conditional)
        (closed_write_i32 .nodeMod r.nodeMod) (closed_write_u64 .address r.address)
        (closed_write_u64 .executions r.executions) hincoming houtgoing hkind)
    rw [delimited_leadingTokens]
    simp only [List.append_assoc] at hspelled ⊢
    exact hspelled

end Record

end TraceGraph
