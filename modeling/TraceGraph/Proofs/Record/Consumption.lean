import Mathlib.Algebra.BigOperators.Ring.List
import Mathlib.Algebra.Ring.Nat
import TraceGraph.Proofs.Record.NormalForm
import TraceGraph.Proofs.Record.Truncation

/-!
# What a record takes of a stream

A count in a stream can claim more items than the stream has bytes. This module shows that
such a count never makes a reader hold more than the stream is long, and never gives a node.

Each number in the text of a record takes two bytes at least, its delimiter included, and a
payload takes one. So a text is at least as long as what its record holds:

> `Spelled.leastLength_le`: the least length of a record bounds the length of each of its
> texts.

The bound is built up along the grammar. A list weighs the sum of its items
(`Repeated.sum_le`), and the members of a set are no more than the items that were read.
Since each node leaves a shorter stream, reading ends after a bounded number of nodes
(`exists_scanMany`), and what these hold together is bounded by half the length of the
stream.

The other half is about a count that is larger than the number of items behind it
(`Unbacked`). It can stand in four places of a record. In each of them the fields in front
are read as they stand, so the count is reached, and behind it the items are missing:

> `not_spelled_of_unbacked`: no record begins so.

The main result `Node.scan?_progress` puts both together.
-/

namespace TraceGraph

open Grammar

/-- How many arguments were captured in all calls. -/
def Kind.argumentTotal {β : Type} (kind : Kind β) : Nat := (kind.calls.map List.length).sum

namespace Record

/-- The number of bytes that a record cannot be spelled without. -/
def leastLength {β : Type} (r : Record β) : Nat :=
  24 + 2 * (r.incoming.size + r.outgoing.size + r.kind.calls.length) + 3 * r.kind.argumentTotal

/-- How many neighbours, calls and arguments a record holds. -/
def holdings {β : Type} (r : Record β) : Nat :=
  r.incoming.size + r.outgoing.size + r.kind.calls.length + r.kind.argumentTotal

/-- The instruction of a block has no part in the length. -/
theorem leastLength_unbound (r : Record Block) : r.unbound.leastLength = r.leastLength := by
  have hcalls : r.unbound.kind.calls = r.kind.calls := Kind.calls_map Block.mutation r.kind
  unfold leastLength Kind.argumentTotal
  rw [hcalls]
  rfl

end Record

/-! ## How long texts are -/

namespace Decimal

/-- A number has at least one digit. -/
theorem Unsigned.ne_nil {text : Bytes} {n : Nat} (h : Unsigned text n) : text ≠ [] := by
  cases h with
  | plain h => exact h.ne_nil
  | plus h => exact List.cons_ne_nil _ _

theorem Signed.ne_nil {text : Bytes} {n : Int} (h : Signed text n) : text ≠ [] := by
  cases h with
  | plain h => exact h.ne_nil
  | plus h => exact List.cons_ne_nil _ _
  | minus h => exact List.cons_ne_nil _ _

end Decimal

namespace Grammar

variable {α : Type} {g : Grammar α} {delimiter : UInt8} {text texts : Bytes} {a : α} {as : List α}

/-- A token that is not empty takes two bytes with its delimiter. -/
theorem Closed.two_le (hg : ∀ token a, g token a → token ≠ []) (h : Closed g delimiter text a) :
    2 ≤ text.length := by
  obtain @⟨token, _, htoken⟩ := h
  have hpos := List.length_pos_of_ne_nil (hg token a htoken)
  rw [List.length_append, List.length_singleton]
  omega

theorem Closed.two_le_of_unsigned32 {n : UInt32} (h : Closed unsigned32 delimiter text n) :
    2 ≤ text.length :=
  h.two_le fun _ _ => Decimal.Unsigned.ne_nil

theorem Closed.two_le_of_unsigned64 {n : UInt64} (h : Closed unsigned64 delimiter text n) :
    2 ≤ text.length :=
  h.two_le fun _ _ => Decimal.Unsigned.ne_nil

theorem Closed.two_le_of_signed32 {n : Int32} (h : Closed signed32 delimiter text n) :
    2 ≤ text.length :=
  h.two_le fun _ _ => Decimal.Signed.ne_nil

/-- Texts behind each other are as long as the sum of what each of them takes. -/
theorem Repeated.sum_le {weight : α → Nat} (hg : ∀ text a, g text a → weight a ≤ text.length)
    (h : Repeated g texts as) : (as.map weight).sum ≤ texts.length := by
  induction h with
  | nil => exact Nat.zero_le _
  | cons head tail ih =>
    have hhead := hg _ _ head
    rw [List.map_cons, List.sum_cons, List.length_append]
    omega

theorem Repeated.length_le {k : Nat} (hg : ∀ text a, g text a → k ≤ text.length)
    (h : Repeated g texts as) : k * as.length ≤ texts.length := by
  have hsum := h.sum_le hg
  rwa [List.map_const', List.sum_replicate_nat, Nat.mul_comm] at hsum

/-- The count of a list takes two bytes more than its items. -/
theorem Counted.sum_le {weight : α → Nat} (hg : ∀ text a, g text a → weight a ≤ text.length)
    (h : Counted g text as) : 2 + (as.map weight).sum ≤ text.length := by
  obtain ⟨hcount, hitems, -⟩ := h
  have hcount := hcount.two_le_of_unsigned32
  have hitems := hitems.sum_le hg
  rw [List.length_append]
  omega

theorem Counted.length_le {k : Nat} (hg : ∀ text a, g text a → k ≤ text.length)
    (h : Counted g text as) : 2 + k * as.length ≤ text.length := by
  have hsum := h.sum_le hg
  rwa [List.map_const', List.sum_replicate_nat, Nat.mul_comm] at hsum

/-- An argument takes three bytes even if its value is empty. -/
theorem Argument.three_le (text : Bytes) (argument : Int32 × Bytes) (h : Argument text argument) :
    3 ≤ text.length := by
  obtain ⟨hposition, hvalue⟩ := h
  obtain ⟨-⟩ := hvalue
  have hposition := hposition.two_le_of_signed32
  rw [List.length_append, List.length_append, List.length_singleton]
  omega

theorem KindSpelled.length_le {kind : Kind UInt32} (h : KindSpelled text kind) :
    4 + 2 * kind.calls.length + 3 * kind.argumentTotal ≤ text.length := by
  cases h with
  | internal hmutation =>
    have hmutation := hmutation.two_le_of_unsigned32
    rw [List.length_append]
    exact Nat.add_le_add_left hmutation 2
  | @external text calls hcalls =>
    have hcalls := hcalls.sum_le fun _ _ harguments => harguments.length_le Argument.three_le
    have htotal : (calls.map fun arguments => 2 + 3 * arguments.length).sum =
        2 * calls.length + 3 * (calls.map List.length).sum := by
      rw [List.sum_map_add, List.map_const', List.sum_replicate_nat, Nat.mul_comm 2,
        List.sum_map_mul_left]
    rw [htotal] at hcalls
    show 4 + 2 * calls.length + 3 * (calls.map List.length).sum ≤ _
    simp only [List.length_append, List.length_cons, List.length_nil]
    omega

end Grammar

namespace Record

/-- Neighbours that are repeated in a text take as much of it as others. -/
theorem size_le_of_counted {text : Bytes} {is : List UInt32}
    (h : Counted (Closed unsigned32 comma) text is) :
    2 + 2 * (IndexSet.ofList is).size ≤ text.length := by
  have hlength := h.length_le fun _ _ hi => hi.two_le_of_unsigned32
  have hsize := size_ofList_le is
  omega

theorem Spelled.leastLength_le {text : Bytes} {r : Record UInt32} (h : Spelled text r) :
    r.leastLength ≤ text.length := by
  obtain ⟨hindex, ⟨ha, hb, hbmod, hconditional, hnodeMod, haddress, hexecutions, hincoming,
    houtgoing, hkind⟩⟩ := h
  have hindex := hindex.two_le_of_unsigned32
  have ha := ha.two_le_of_signed32
  have hb := hb.two_le_of_signed32
  have hbmod := hbmod.two_le_of_signed32
  have hconditional := hconditional.two_le_of_signed32
  have hnodeMod := hnodeMod.two_le_of_signed32
  have haddress := haddress.two_le_of_unsigned64
  have hexecutions := hexecutions.two_le_of_unsigned64
  have hincoming := size_le_of_counted hincoming
  have houtgoing := size_le_of_counted houtgoing
  have hkind := hkind.length_le
  unfold leastLength
  simp only [List.length_append]
  omega

end Record

/-! ## Counts without items -/

namespace Grammar

variable {α : Type} {g : Grammar α}

/-- The bytes begin with `n` texts of the grammar. -/
def Begins (g : Grammar α) (n : Nat) (bytes : Bytes) : Prop :=
  ∃ texts rest as, Repeated g texts as ∧ as.length = n ∧ bytes = texts ++ rest

/-- There are no more items than there is room for. -/
theorem Begins.mul_le {n k : Nat} {bytes : Bytes} (hg : ∀ text a, g text a → k ≤ text.length)
    (h : Begins g n bytes) : k * n ≤ bytes.length := by
  obtain ⟨texts, rest, as, hrepeated, rfl, rfl⟩ := h
  have hlength := hrepeated.length_le hg
  rw [List.length_append]
  omega

/-- A list at the front of a text is the items behind the count at the front of the text. -/
theorem Counted.begins {text count rest rest' : Bytes} {as : List α} {n : UInt32}
    (h : Counted g text as) (hcount : Closed unsigned32 comma count n)
    (heq : text ++ rest' = count ++ rest) : Begins g n.toNat rest := by
  obtain @⟨_, items, _, _, hcount', hitems, hlength⟩ := h
  rw [List.append_assoc] at heq
  obtain ⟨-, rfl, hrest⟩ := (Field.accepts_scan_u32 .callCount).split hcount' hcount heq
  exact ⟨items, rest', as, hitems, hlength, hrest.symm⟩

/-- Behind some of the texts at the front stands the next one. -/
theorem Repeated.exists_next {x : Scan α} (hx : x.Accepts g) {texts front rest tail : Bytes}
    {as earlier : List α} (hfront : Repeated g front earlier) (h : Repeated g texts as)
    (hlength : earlier.length < as.length) (heq : texts ++ rest = front ++ tail) :
    ∃ text a rest', g text a ∧ text ++ rest' = tail := by
  induction hfront generalizing texts as with
  | nil =>
    cases h with
    | nil => cases hlength
    | @cons text texts a as head _ => exact ⟨text, a, texts ++ rest, head, by simpa using heq⟩
  | cons head _ ih =>
    cases h with
    | nil => cases hlength
    | cons head' tail' =>
      rw [List.append_assoc, List.append_assoc] at heq
      obtain ⟨-, -, hrest⟩ := hx.split head' head heq
      exact ih tail' (Nat.lt_of_succ_lt_succ hlength) hrest

end Grammar

namespace Record

/-- The fields in front of the lists of a record. -/
inductive LeadingSpelled : Bytes → Prop
  | mk {t₀ t₁ t₂ t₃ t₄ t₅ t₆ t₇ : Bytes} {index : UInt32} {a b bmod conditional nodeMod : Int32}
      {address executions : UInt64}
      (hindex : Closed unsigned32 opener t₀ index)
      (ha : Closed signed32 comma t₁ a)
      (hb : Closed signed32 comma t₂ b)
      (hbmod : Closed signed32 comma t₃ bmod)
      (hconditional : Closed signed32 comma t₄ conditional)
      (hnodeMod : Closed signed32 comma t₅ nodeMod)
      (haddress : Closed unsigned64 comma t₆ address)
      (hexecutions : Closed unsigned64 comma t₇ executions) :
      LeadingSpelled (t₀ ++ (t₁ ++ (t₂ ++ (t₃ ++ (t₄ ++ (t₅ ++ (t₆ ++ t₇)))))))

/-- Printed leading fields are leading fields. -/
theorem leadingSpelled_leadingTokens (r : Record UInt32) :
    LeadingSpelled (delimited r.leadingTokens) := by
  have h := LeadingSpelled.mk (closed_write_u32 .index r.index) (closed_write_i32 .a r.position.a)
    (closed_write_i32 .b r.position.b) (closed_write_i32 .bmod r.position.bmod)
    (closed_write_i32 .conditional r.conditional) (closed_write_i32 .nodeMod r.nodeMod)
    (closed_write_u64 .address r.address) (closed_write_u64 .executions r.executions)
  have htext := delimited_leadingTokens r []
  rw [List.append_nil, List.append_nil] at htext
  rwa [htext]

/-- The bytes of a record up to a count, and behind it fewer items than the count says. -/
inductive Unbacked : Bytes → Prop
  | incoming {front count rest : Bytes} {n : UInt32} (hfront : LeadingSpelled front)
      (hcount : Closed unsigned32 comma count n)
      (hrest : ¬Begins (Closed unsigned32 comma) n.toNat rest) : Unbacked (front ++ (count ++ rest))
  | outgoing {front t₁ count rest : Bytes} {incoming : List UInt32} {n : UInt32}
      (hfront : LeadingSpelled front) (hincoming : Counted (Closed unsigned32 comma) t₁ incoming)
      (hcount : Closed unsigned32 comma count n)
      (hrest : ¬Begins (Closed unsigned32 comma) n.toNat rest) :
      Unbacked (front ++ (t₁ ++ (count ++ rest)))
  | calls {front t₁ t₂ count rest : Bytes} {incoming outgoing : List UInt32} {n : UInt32}
      (hfront : LeadingSpelled front) (hincoming : Counted (Closed unsigned32 comma) t₁ incoming)
      (houtgoing : Counted (Closed unsigned32 comma) t₂ outgoing)
      (hcount : Closed unsigned32 comma count n)
      (hrest : ¬Begins (Counted Argument) n.toNat rest) :
      Unbacked (front ++ (t₁ ++ (t₂ ++ ([49, comma] ++ (count ++ rest)))))
  | arguments {front t₁ t₂ t₃ t₄ count rest : Bytes} {incoming outgoing : List UInt32}
      {earlier : List Arguments} {calls n : UInt32}
      (hfront : LeadingSpelled front) (hincoming : Counted (Closed unsigned32 comma) t₁ incoming)
      (houtgoing : Counted (Closed unsigned32 comma) t₂ outgoing)
      (hcalls : Closed unsigned32 comma t₃ calls)
      (hearlier : Repeated (Counted Argument) t₄ earlier) (hlength : earlier.length < calls.toNat)
      (hcount : Closed unsigned32 comma count n) (hrest : ¬Begins Argument n.toNat rest) :
      Unbacked (front ++ (t₁ ++ (t₂ ++ ([49, comma] ++ (t₃ ++ (t₄ ++ (count ++ rest)))))))

/-- A record does not begin like the end marker. -/
theorem LeadingSpelled.head?_ne {front : Bytes} (h : LeadingSpelled front) :
    ∃ b bytes, front = b :: bytes ∧ b ≠ closer := by
  obtain @⟨_, t₁, t₂, t₃, t₄, t₅, t₆, t₇, _, _, _, _, _, _, _, _, @⟨token, index, hindex⟩, -⟩ := h
  have hmem : closer ∉ token := hindex.not_mem (by decide) (by decide)
  cases token with
  | nil => exact ⟨opener, _, rfl, by decide⟩
  | cons b bytes => exact ⟨b, _, rfl, fun hb => hmem (hb ▸ List.mem_cons_self ..)⟩

/-- Behind leading fields a record goes on with its lists and its kind. -/
theorem LeadingSpelled.exists_lists {front tail text rest : Bytes} {r : Record UInt32}
    (hfront : LeadingSpelled front) (h : Spelled text r) (heq : text ++ rest = front ++ tail) :
    ∃ t₁ t₂ t₃ incoming outgoing, Counted (Closed unsigned32 comma) t₁ incoming ∧
      Counted (Closed unsigned32 comma) t₂ outgoing ∧ KindSpelled t₃ r.kind ∧
      t₁ ++ (t₂ ++ (t₃ ++ rest)) = tail := by
  obtain ⟨hindex, ha, hb, hbmod, hconditional, hnodeMod, haddress, hexecutions⟩ := hfront
  obtain ⟨hindex', ⟨ha', hb', hbmod', hconditional', hnodeMod', haddress', hexecutions',
    hincoming, houtgoing, hkind⟩⟩ := h
  simp only [List.append_assoc] at heq
  obtain ⟨-, -, heq⟩ := (Field.accepts_scan_u32 .index).split hindex' hindex heq
  obtain ⟨-, -, heq⟩ := (Field.accepts_scan_i32 .a).split ha' ha heq
  obtain ⟨-, -, heq⟩ := (Field.accepts_scan_i32 .b).split hb' hb heq
  obtain ⟨-, -, heq⟩ := (Field.accepts_scan_i32 .bmod).split hbmod' hbmod heq
  obtain ⟨-, -, heq⟩ :=
    (Field.accepts_scan_i32 .conditional).split hconditional' hconditional heq
  obtain ⟨-, -, heq⟩ := (Field.accepts_scan_i32 .nodeMod).split hnodeMod' hnodeMod heq
  obtain ⟨-, -, heq⟩ := (Field.accepts_scan_u64 .address).split haddress' haddress heq
  obtain ⟨-, -, heq⟩ :=
    (Field.accepts_scan_u64 .executions).split hexecutions' hexecutions heq
  exact ⟨_, _, _, _, _, hincoming, houtgoing, hkind, heq⟩

/-- A kind that begins with the flag of external nodes has calls behind it. -/
theorem exists_counted_of_kindSpelled {text rest tail : Bytes} {kind : Kind UInt32}
    (h : KindSpelled text kind) (heq : text ++ rest = [49, comma] ++ tail) :
    ∃ t calls rest', Counted (Counted Argument) t calls ∧ t ++ rest' = tail := by
  cases h with
  | internal hmutation => cases heq
  | @external t calls hcalls =>
    refine ⟨t, calls, [closer] ++ rest, hcalls, ?_⟩
    rw [List.append_assoc, List.append_assoc] at heq
    exact List.append_cancel_left heq

/-- No record begins with a count that is not backed. -/
theorem not_spelled_of_unbacked {bytes text rest : Bytes} {r : Record UInt32}
    (h : Unbacked bytes) (hspelled : Spelled text r) : text ++ rest ≠ bytes := by
  intro heq
  -- in each case what stands in front of the count is read first, and the count then has
  -- its items
  cases h with
  | incoming hfront hcount hrest =>
    obtain ⟨_, _, _, _, _, hin, -, -, heq⟩ := hfront.exists_lists hspelled heq
    exact hrest (hin.begins hcount heq)
  | outgoing hfront hincoming hcount hrest =>
    obtain ⟨_, _, _, _, _, hin, hout, -, heq⟩ := hfront.exists_lists hspelled heq
    obtain ⟨-, -, heq⟩ := accepts_neighbours.split hin hincoming heq
    exact hrest (hout.begins hcount heq)
  | calls hfront hincoming houtgoing hcount hrest =>
    obtain ⟨_, _, _, _, _, hin, hout, hkind, heq⟩ := hfront.exists_lists hspelled heq
    obtain ⟨-, -, heq⟩ := accepts_neighbours.split hin hincoming heq
    obtain ⟨-, -, heq⟩ := accepts_neighbours.split hout houtgoing heq
    obtain ⟨_, _, _, hcalls, heq⟩ := exists_counted_of_kindSpelled hkind heq
    exact hrest (hcalls.begins hcount heq)
  | arguments hfront hincoming houtgoing hcalls hearlier hlength hcount hrest =>
    obtain ⟨_, _, _, _, _, hin, hout, hkind, heq⟩ := hfront.exists_lists hspelled heq
    obtain ⟨-, -, heq⟩ := accepts_neighbours.split hin hincoming heq
    obtain ⟨-, -, heq⟩ := accepts_neighbours.split hout houtgoing heq
    obtain ⟨_, _, _, hall, heq⟩ := exists_counted_of_kindSpelled hkind heq
    obtain ⟨_, _, _, hitems, hnumber, heq⟩ := hall.begins hcalls heq
    have hcall : scanArguments.Accepts (Counted Argument) :=
      accepts_counted rfl accepts_scanArgument
    obtain ⟨_, _, _, hnext, heq⟩ :=
      hearlier.exists_next hcall hitems (hnumber.symm ▸ hlength) heq.symm
    exact hrest (hnext.begins hcount heq)

/-- What begins with a count that is not backed is no end marker either. -/
theorem Unbacked.head?_ne {bytes : Bytes} (h : Unbacked bytes) :
    ∃ b rest, bytes = b :: rest ∧ b ≠ closer := by
  have hfront : ∃ front tail, LeadingSpelled front ∧ bytes = front ++ tail := by
    cases h with
    | incoming hfront => exact ⟨_, _, hfront, rfl⟩
    | outgoing hfront => exact ⟨_, _, hfront, rfl⟩
    | calls hfront => exact ⟨_, _, hfront, rfl⟩
    | arguments hfront => exact ⟨_, _, hfront, rfl⟩
  obtain ⟨front, tail, hleading, rfl⟩ := hfront
  obtain ⟨b, rest, rfl, hb⟩ := hleading.head?_ne
  exact ⟨b, rest ++ tail, rfl, hb⟩

end Record

namespace Node

open Record

variable {lookup : Lookup} {s s' : ByteStream} {node : Node}

/-! ## Streams of nodes -/

/-- A node that was read has taken at least what its record cannot be spelled without. -/
theorem leastLength_le_of_scan? (h : scan? lookup s = (.ok (some node), s')) :
    s.offset + node.toRecord.leastLength ≤ s'.offset ∧
      s'.rest.length + node.toRecord.leastLength ≤ s.rest.length := by
  obtain ⟨text, r, hspelled, hpast, hbinds⟩ := exists_spelled_of_scan? h
  have hlength := hspelled.leastLength_le
  rw [← hbinds.unbound_eq, leastLength_unbound] at hlength
  rw [hpast.offset, hpast.rest, List.length_append]
  omega

/-- Nodes are read up to a place where no further one can be read, and they hold no more than the
stream is long. -/
theorem exists_scanMany (lookup : Lookup) (s : ByteStream) :
    ∃ (nodes : List Node) (s' : ByteStream),
      scanMany lookup nodes.length s = (nodes.map fun node => .ok (some node), s') ∧
      (∀ node, (scan? lookup s').1 ≠ .ok (some node)) ∧
      24 * nodes.length + 2 * (nodes.map fun node => node.toRecord.holdings).sum ≤
        s.rest.length := by
  -- each node leaves a shorter stream
  induction hn : s.rest.length using Nat.strong_induction_on generalizing s with
  | h n ih =>
    subst hn
    cases hscan : scan? lookup s with
    | mk answer s₁ =>
      by_cases hnode : ∃ node, answer = .ok (some node)
      · obtain ⟨node, rfl⟩ := hnode
        obtain ⟨-, hlength⟩ := leastLength_le_of_scan? hscan
        unfold leastLength at hlength
        obtain ⟨nodes, s', hnodes, hend, hbound⟩ := ih s₁.rest.length (by omega) s₁ rfl
        refine ⟨node :: nodes, s', ?_, hend, ?_⟩
        · rw [List.length_cons, scanMany_succ hscan, hnodes]
          rfl
        · rw [List.length_cons, List.map_cons, List.sum_cons]
          unfold holdings at hbound ⊢
          omega
      · refine ⟨[], s, rfl, ?_, Nat.zero_le _⟩
        intro node hanswer
        rw [hscan] at hanswer
        exact hnode ⟨node, hanswer⟩

/-- A count without its items gives an error: neither a node nor the end of the nodes is
there. -/
theorem exists_error_of_unbacked (h : Unbacked s.rest) :
    ∃ e s', scan? lookup s = (.error e, s') := by
  cases hscan : scan? lookup s with
  | mk answer s' =>
    match answer with
    | .error e => exact ⟨e, s', rfl⟩
    | .ok none =>
      obtain ⟨b, rest, hrest, hb⟩ := h.head?_ne
      have hmarker : ∃ tail, s.rest = closer :: tail := by
        rcases Record.scan?_eq_none_iff.1 (scan?_eq_none_iff.1 hscan) with hpast | ⟨-, hpast, -⟩
        · exact ⟨_, hpast.rest⟩
        · exact ⟨_, hpast.rest⟩
      obtain ⟨tail, htail⟩ := hmarker
      exact absurd (List.cons.inj (hrest.symm.trans htail)).1 hb
    | .ok (some node) =>
      obtain ⟨_, _, hspelled, hpast, -⟩ := exists_spelled_of_scan? hscan
      exact absurd hpast.rest.symm (not_spelled_of_unbacked h hspelled)

/-- A node takes as many bytes as it must. So from every stream only so many nodes can be read, and
they hold no more neighbours, calls and arguments than half the bytes of the stream. A count that
is larger than the number of items behind it gives no node. -/
theorem scan?_progress (lookup : Lookup) (s : ByteStream) :
    (∀ node s', scan? lookup s = (.ok (some node), s') →
      s.offset + (24 + 2 * (node.incoming.size + node.outgoing.size + node.kind.calls.length) +
        3 * (node.kind.calls.map List.length).sum) ≤ s'.offset) ∧
    (∃ (nodes : List Node) (s' : ByteStream),
      scanMany lookup nodes.length s = (nodes.map fun node => .ok (some node), s') ∧
      (∀ node, (scan? lookup s').1 ≠ .ok (some node)) ∧
      nodes.length ≤ s.rest.length / 24 ∧
      (nodes.map fun node => node.incoming.size + node.outgoing.size + node.kind.calls.length +
        (node.kind.calls.map List.length).sum).sum ≤ s.rest.length / 2) ∧
    (Unbacked s.rest → ∃ e s', scan? lookup s = (.error e, s')) := by
  refine ⟨fun node s' h => (leastLength_le_of_scan? h).1, ?_, exists_error_of_unbacked⟩
  obtain ⟨nodes, s', hnodes, hend, hbound⟩ := exists_scanMany lookup s
  refine ⟨nodes, s', hnodes, hend, by omega, ?_⟩
  show (nodes.map fun node => node.toRecord.holdings).sum ≤ _
  omega

/-- A record of one byte for each of its fields that claims to have as many neighbours as a count
can say. -/
theorem scan?_progress_largestCount (lookup : Lookup) :
    let front := Record.delimited (external 7 {} 0x2000).toRecord.unbound.leadingTokens
    let text := front ++ (FieldFormat.u32.write 4294967295 ++ [comma] ++ [49, comma, 50, comma])
    ∃ e s', scan? lookup { rest := text } = (.error e, s') := by
  intro front text
  have hcount : Closed unsigned32 comma (FieldFormat.u32.write 4294967295 ++ [comma]) 4294967295 :=
    closed_write_u32 .incomingCount 4294967295
  have hfew : ¬Begins (Closed unsigned32 comma) (4294967295 : UInt32).toNat
      [49, comma, 50, comma] := by
    intro h
    have hlength := h.mul_le fun _ _ hi => hi.two_le_of_unsigned32
    exact absurd hlength (by decide)
  obtain ⟨-, -, hunbacked⟩ := scan?_progress lookup { rest := text }
  exact hunbacked (.incoming (leadingSpelled_leadingTokens _) hcount hfew)

end Node

end TraceGraph
