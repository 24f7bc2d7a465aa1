import TraceGraph.Proofs.Text.Spelling
import TraceGraph.Record.Printer

/-!
# The grammar of records

A grammar says which texts stand for which values (`Grammar`). `Record.Spelled` is the
grammar of a record: its tokens in order, each closed by its delimiter, with as many items
behind a count as the count says. Nothing here is said in terms of a scan or of the printer,
so the two can be compared with it and, by way of it, with each other.

The grammar has more texts than the printer writes. A number may have leading zeros and a
plus, and neighbours can be in any order and be repeated. What the printer writes for a
record is one of the texts of this record:

> `Record.spelled_encode`: the printed text of a record stands for the record.

The one condition is `Countable`: the lists of the record are short enough for the 32-bit
counts in front of them. The proof goes along the fields. A number that is written is read
again, so it is in the grammar (`closed_write_u32` and its siblings); a list behind its
length is in the grammar of counted lists (`counted_flatMap`); and the sets come back
because they are written in order and without repetition.
-/

namespace TraceGraph

/-- Which texts stand for which values. -/
abbrev Grammar (α : Type) := Bytes → α → Prop

namespace Grammar

variable {α : Type}

/-- A number in the range of its type, with any number of leading zeros and an optional plus. -/
def unsigned32 : Grammar UInt32 := fun text n => Decimal.Unsigned text n.toNat

def unsigned64 : Grammar UInt64 := fun text n => Decimal.Unsigned text n.toNat

/-- Like an unsigned number, but a minus may stand in place of the plus. -/
def signed32 : Grammar Int32 := fun text n => Decimal.Signed text n.toInt

def payload : Grammar Bytes := Base64.Canonical

/-- A text and the delimiter that closes it. -/
inductive Closed (g : Grammar α) (delimiter : UInt8) : Bytes → α → Prop
  | mk {token : Bytes} {a : α} (h : g token a) : Closed g delimiter (token ++ [delimiter]) a

/-- Texts behind each other. -/
inductive Repeated (g : Grammar α) : Bytes → List α → Prop
  | nil : Repeated g [] []
  | cons {text texts : Bytes} {a : α} {as : List α} (head : g text a) (tail : Repeated g texts as) :
      Repeated g (text ++ texts) (a :: as)

/-- A count, and exactly as many texts behind it. -/
inductive Counted (g : Grammar α) : Bytes → List α → Prop
  | mk {count texts : Bytes} {n : UInt32} {as : List α} (hcount : Closed unsigned32 comma count n)
      (hitems : Repeated g texts as) (hlength : as.length = n.toNat) :
      Counted g (count ++ texts) as

/-- An argument's position and its value. -/
inductive Argument : Bytes → Int32 × Bytes → Prop
  | mk {t₁ t₂ : Bytes} {position : Int32} {value : Bytes}
      (hposition : Closed signed32 comma t₁ position) (hvalue : Closed payload comma t₂ value) :
      Argument (t₁ ++ t₂) (position, value)

/-- What distinguishes the two kinds of nodes: behind `0,` the mutation and a brace that closes it,
behind `1,` the calls and a brace. -/
inductive KindSpelled : Bytes → Kind UInt32 → Prop
  | internal {text : Bytes} {mutation : UInt32} (h : Closed unsigned32 closer text mutation) :
      KindSpelled ([48, comma] ++ text) (.internal mutation)
  | external {text : Bytes} {calls : List Arguments} (h : Counted (Counted Argument) text calls) :
      KindSpelled ([49, comma] ++ text ++ [closer]) (.external calls)

end Grammar

namespace Record

open Grammar

/-- What stands behind the index of a record. Neighbours can be in any order and be repeated. -/
inductive BodySpelled (index : UInt32) : Bytes → Record UInt32 → Prop
  | mk {t₁ t₂ t₃ t₄ t₅ t₆ t₇ t₈ t₉ t₁₀ : Bytes} {a b bmod conditional nodeMod : Int32}
      {address executions : UInt64} {incoming outgoing : List UInt32} {kind : Kind UInt32}
      (ha : Closed signed32 comma t₁ a)
      (hb : Closed signed32 comma t₂ b)
      (hbmod : Closed signed32 comma t₃ bmod)
      (hconditional : Closed signed32 comma t₄ conditional)
      (hnodeMod : Closed signed32 comma t₅ nodeMod)
      (haddress : Closed unsigned64 comma t₆ address)
      (hexecutions : Closed unsigned64 comma t₇ executions)
      (hincoming : Counted (Closed unsigned32 comma) t₈ incoming)
      (houtgoing : Counted (Closed unsigned32 comma) t₉ outgoing)
      (hkind : KindSpelled t₁₀ kind) :
      BodySpelled index (t₁ ++ t₂ ++ t₃ ++ t₄ ++ t₅ ++ t₆ ++ t₇ ++ t₈ ++ t₉ ++ t₁₀)
        { index, position := ⟨a, b, bmod⟩, conditional, nodeMod, address, executions,
          incoming := .ofList incoming, outgoing := .ofList outgoing, kind }

/-- The texts of a record: an index closed by an opening brace, and the other fields. -/
inductive Spelled : Bytes → Record UInt32 → Prop
  | mk {t₁ t₂ : Bytes} {index : UInt32} {r : Record UInt32}
      (hindex : Closed unsigned32 opener t₁ index) (hbody : BodySpelled index t₂ r) :
      Spelled (t₁ ++ t₂) r

end Record

/-! ## What is printed is in the grammar -/

namespace Grammar

/-- A printed number and its delimiter are in the grammar, because the number is read again.
-/
theorem closed_write_u32 (field : Field) (n : UInt32) :
    Closed unsigned32 field.delimiter (FieldFormat.u32.write n ++ [field.delimiter]) n :=
  .mk (FieldFormat.read?_u32_eq_some_iff.1 (FieldFormat.u32.read?_write n))

theorem closed_write_u64 (field : Field) (n : UInt64) :
    Closed unsigned64 field.delimiter (FieldFormat.u64.write n ++ [field.delimiter]) n :=
  .mk (FieldFormat.read?_u64_eq_some_iff.1 (FieldFormat.u64.read?_write n))

theorem closed_write_i32 (field : Field) (n : Int32) :
    Closed signed32 field.delimiter (FieldFormat.i32.write n ++ [field.delimiter]) n :=
  .mk (FieldFormat.read?_i32_eq_some_iff.1 (FieldFormat.i32.read?_write n))

variable {α : Type}

/-- Texts of the members of a list, behind each other, stand for the list. -/
theorem repeated_flatMap {g : Grammar α} {write : α → Bytes} (as : List α)
    (h : ∀ a ∈ as, g (write a) a) : Repeated g (as.flatMap write) as := by
  induction as with
  | nil => exact .nil
  | cons a as ih =>
    rw [List.flatMap_cons]
    exact .cons (h a (List.mem_cons_self ..)) (ih fun b hb => h b (List.mem_cons_of_mem _ hb))

/-- A list behind its length, provided that the length is a 32-bit number. -/
theorem counted_flatMap {g : Grammar α} {write : α → Bytes} {as : List α}
    (hlength : as.length < UInt32.size) (h : ∀ a ∈ as, g (write a) a) :
    Counted g (Decimal.digits as.length ++ [comma] ++ as.flatMap write) as := by
  have hn : (UInt32.ofNat as.length).toNat = as.length := UInt32.toNat_ofNat_of_lt' hlength
  have hcount := closed_write_u32 .callCount (UInt32.ofNat as.length)
  -- the length is written as a number of any size, and the count is read as a 32-bit one
  rw [show FieldFormat.u32.write (UInt32.ofNat as.length) = Decimal.digits as.length from
    congrArg Decimal.digits hn] at hcount
  exact .mk hcount (repeated_flatMap as h) hn.symm

end Grammar

/-- The calls of an external node; an internal one has none. -/
def Kind.calls {β : Type} : Kind β → List Arguments
  | .internal _ => []
  | .external calls => calls

/-- What an internal node refers to has no part in the calls. -/
theorem Kind.calls_map {β γ : Type} (f : β → γ) (kind : Kind β) :
    (kind.map f).calls = kind.calls := by
  cases kind with
  | internal block => rfl
  | external calls => rfl

namespace Record

open Grammar

/-- The lists of a record are short enough for the counts in front of them. -/
structure Countable {β : Type} (r : Record β) : Prop where
  incoming : r.incoming.size < UInt32.size
  outgoing : r.outgoing.size < UInt32.size
  calls : r.kind.calls.length < UInt32.size
  arguments : ∀ arguments ∈ r.kind.calls, arguments.length < UInt32.size

instance {β : Type} (r : Record β) : Decidable r.Countable :=
  decidable_of_iff
    ((r.incoming.size < UInt32.size ∧ r.outgoing.size < UInt32.size) ∧
      r.kind.calls.length < UInt32.size ∧
      ∀ arguments ∈ r.kind.calls, arguments.length < UInt32.size)
    ⟨fun h => ⟨h.1.1, h.1.2, h.2.1, h.2.2⟩, fun h => ⟨⟨h.1, h.2⟩, h.3, h.4⟩⟩

/-- Forgetting the instruction of a block does not change any count. -/
theorem Countable.unbound {r : Record Block} (h : r.Countable) : r.unbound.Countable := by
  have hcalls : r.unbound.kind.calls = r.kind.calls := Kind.calls_map Block.mutation r.kind
  refine ⟨h.incoming, h.outgoing, ?_, ?_⟩
  · rw [hcalls]
    exact h.calls
  · rw [hcalls]
    exact h.arguments

theorem delimited_cons (field : Field) (text : Bytes) (tokens : List (Field × Bytes)) :
    delimited ((field, text) :: tokens) = text ++ [field.delimiter] ++ delimited tokens := rfl

theorem delimited_append (tokens tokens' : List (Field × Bytes)) :
    delimited (tokens ++ tokens') = delimited tokens ++ delimited tokens' :=
  List.flatMap_append

/-- A set is written in a form that stands for the list of its members. -/
theorem counted_neighbourTokens (count neighbour : Field) (hcount : count.delimiter = comma)
    (hneighbour : neighbour.delimiter = comma) {s : IndexSet} (h : s.size < UInt32.size) :
    Counted (Closed unsigned32 comma) (delimited (neighbourTokens count neighbour s)) s.toList := by
  unfold neighbourTokens delimited
  rw [List.flatMap_cons, List.flatMap_map]
  simp only [hcount, hneighbour]
  refine counted_flatMap h ?_
  intro i _
  have hclosed := closed_write_u32 neighbour i
  rwa [hneighbour] at hclosed

/-- The arguments of a call are written in a form that stands for them. -/
theorem counted_argumentTokens {arguments : Arguments} (h : arguments.length < UInt32.size) :
    Counted Argument (delimited (argumentTokens arguments)) arguments := by
  unfold argumentTokens delimited
  rw [List.flatMap_cons, List.flatMap_assoc]
  refine counted_flatMap h fun (position, value) _ => ?_
  have hposition := closed_write_i32 .argumentPosition position
  have hvalue : Closed payload comma (FieldFormat.payload.write value ++ [comma]) value :=
    .mk (FieldFormat.read?_payload_eq_some_iff.1 (FieldFormat.payload.read?_write value))
  show Argument (FieldFormat.i32.write position ++ [comma] ++
    (FieldFormat.payload.write value ++ [comma] ++ [])) (position, value)
  rw [List.append_nil]
  exact .mk hposition hvalue

theorem delimited_flatMap {α : Type} (f : α → List (Field × Bytes)) (as : List α) :
    delimited (as.flatMap f) = as.flatMap fun a => delimited (f a) :=
  List.flatMap_assoc

/-- What is written behind the lists stands for the kind, closing brace included. -/
theorem spelled_kindTokens {kind : Kind UInt32}
    (hcalls : kind.calls.length < UInt32.size)
    (harguments : ∀ arguments ∈ kind.calls, arguments.length < UInt32.size) :
    KindSpelled (delimited (kindTokens kind) ++ terminator kind) kind := by
  cases kind with
  | internal mutation =>
    show KindSpelled ([48, comma] ++ (FieldFormat.u32.write mutation ++ [closer] ++ []) ++ []) _
    rw [List.append_nil, List.append_nil]
    exact .internal (closed_write_u32 .mutation mutation)
  | external calls =>
    have h := counted_flatMap hcalls fun arguments hmem =>
      counted_argumentTokens (harguments arguments hmem)
    rw [← delimited_flatMap] at h
    exact .external h

/-- A set is determined by the list of its members. -/
theorem ofList_toList (s : IndexSet) : IndexSet.ofList s.toList = s :=
  IndexSet.ext fun i => by rw [IndexSet.mem_ofList, IndexSet.mem_toList]

/-- The printed text of a record stands for the record. -/
theorem spelled_encode {r : Record UInt32} (h : r.Countable) : Spelled r.encode r := by
  have hkind := spelled_kindTokens h.calls h.arguments
  have hincoming :=
    counted_neighbourTokens .incomingCount .incomingNeighbour rfl rfl h.incoming
  have houtgoing :=
    counted_neighbourTokens .outgoingCount .outgoingNeighbour rfl rfl h.outgoing
  have hbody : BodySpelled r.index _ _ := .mk
    (closed_write_i32 .a r.position.a) (closed_write_i32 .b r.position.b)
    (closed_write_i32 .bmod r.position.bmod) (closed_write_i32 .conditional r.conditional)
    (closed_write_i32 .nodeMod r.nodeMod) (closed_write_u64 .address r.address)
    (closed_write_u64 .executions r.executions) hincoming houtgoing hkind
  -- a set is written in order and without repetition, so the lists make the same sets again
  rw [ofList_toList, ofList_toList] at hbody
  have hspelled := Spelled.mk (closed_write_u32 .index r.index) hbody
  unfold encode tokens
  simp only [delimited_append, delimited_cons, List.append_assoc] at hspelled ⊢
  exact hspelled

end Record

end TraceGraph
