import TraceGraph.Proofs.Record.Boundary

/-!
# What a lookup decides

A record is read to its end before anything is looked up, and a lookup is asked one question
at most: for the instruction to which a whole internal record refers. This module says how
much of a scan can depend on the lookup at all.

No part of the scan of a record fails for what a store says (`Scan.Storeless`, one of the
compositional properties). So what the text is decides what happens next, and there are four
cases: the record is refused, the nodes end, the record is external, or it is internal. In
the first three the answer is `Settled`: it is the same for all lookups. In the last one it
follows from what the lookup answers to the question, and from nothing else of it
(`Record.Answers`).

> `Node.scan?_of_lookups`: where the scan of a node stops is the same for two lookups, a
> settled
> answer is the same as well, and an answer that is not settled is that to a whole internal
> record,
> read to its brace.

`Record.Answers` is a function of what the store answers (`Record.Answers.eq`), so lookups
that agree on the one reference give the same answer.
-/

namespace TraceGraph

namespace Scan

variable {α β : Type}

/-- The scan fails for the text of a field or for the stream, and never for what a store says. -/
def Storeless (x : Scan α) : Prop :=
  ∀ s e, (x s).1 = .error e →
    (∃ field token, e = .malformed field token) ∨ ∃ failure, e = .stream failure

/-- Two scans that ask no store do not ask one together. -/
theorem Storeless.bind {x : Scan α} {f : α → Scan β} (hx : Storeless x)
    (hf : ∀ a, Storeless (f a)) : Storeless (x >>= f) := by
  intro s e he
  cases hxs : x s with
  | mk answer s₁ =>
    cases answer with
    | ok a =>
      rw [bind_ok hxs] at he
      exact hf a s₁ e he
    | error e' =>
      rw [bind_error hxs] at he
      obtain rfl : e' = e := Except.error.inj he
      exact hx s e' (congrArg Prod.fst hxs)

/-- A token is missing because of the stream or not at all. -/
theorem storeless_token (delimiter : UInt8) : Storeless (token delimiter) := by
  intro s e he
  unfold token at he
  split at he
  next => cases he
  next failure _ _ => exact .inr ⟨failure, (Except.error.inj he).symm⟩

theorem storeless_nextByte : Storeless nextByte := by
  intro s e he
  unfold nextByte at he
  split at he
  next => cases he
  next failure _ _ => exact .inr ⟨failure, (Except.error.inj he).symm⟩

theorem compositional_storeless : Compositional Storeless where
  pure _ := nofun
  malformed field token := fun _ _ he => .inl ⟨field, token, (Except.error.inj he).symm⟩
  bind := Storeless.bind
  token := storeless_token
  nextByte := storeless_nextByte

end Scan

/-- The answer to a whole internal record, given what a store answers for its reference. An
instruction of the record's address makes a block, under the mutation of the record and not under
the one that the instruction claims. -/
inductive Record.Answers (r : Record UInt32) (mutation : UInt32) :
    Except StoreFailure (Option Instruction) → Except RecordError (Option Node) → Prop
  | bound {instruction : Instruction} (h : instruction.address = r.address) :
      r.Answers mutation (.ok (some instruction))
        (.ok (some ⟨{ r with kind := .internal ⟨mutation, instruction⟩ }, {}⟩))
  | misplaced {instruction : Instruction} (h : instruction.address ≠ r.address) :
      r.Answers mutation (.ok (some instruction)) (.error (.dangling r.address mutation))
  | missing : r.Answers mutation (.ok none) (.error (.dangling r.address mutation))
  | failed (failure : StoreFailure) :
      r.Answers mutation (.error failure) (.error (.store failure))

/-- What a store answers leaves no choice of the answer to the record. -/
theorem Record.Answers.eq {r : Record UInt32} {mutation : UInt32}
    {resolved : Except StoreFailure (Option Instruction)}
    {answer answer' : Except RecordError (Option Node)} (h : r.Answers mutation resolved answer)
    (h' : r.Answers mutation resolved answer') : answer = answer' := by
  cases h with
  | bound haddress =>
    cases h' with
    | bound => rfl
    | misplaced hne => exact absurd haddress hne
  | misplaced hne =>
    cases h' with
    | bound haddress => exact absurd haddress hne
    | misplaced => rfl
  | missing =>
    cases h'
    rfl
  | failed failure =>
    cases h'
    rfl

namespace Node

/-- The answers in which no lookup has a part. -/
inductive Settled : Except RecordError (Option Node) → Prop
  | malformed (field token : String) : Settled (.error (.malformed field token))
  | stream (failure : ReadFailure) : Settled (.error (.stream failure))
  | ended : Settled (.ok none)
  | external {node : Node} (h : node.isExternal = true) : Settled (.ok (some node))

/-- No answer to a whole internal record is settled without a lookup. -/
theorem not_settled_of_answers {r : Record UInt32} {mutation : UInt32}
    {resolved : Except StoreFailure (Option Instruction)}
    {answer : Except RecordError (Option Node)} (h : r.Answers mutation resolved answer) :
    ¬Settled answer := by
  intro hsettled
  cases h with
  | bound =>
    cases hsettled with
    | external hexternal => cases hexternal
  | misplaced => cases hsettled
  | missing => cases hsettled
  | failed => cases hsettled

/-! ## One scan, by what the text of the record is -/

/-- A record that cannot be read is refused alike with all lookups. -/
theorem scan?_of_record_failure {s s' : ByteStream} {e : RecordError}
    (h : Record.scan? s = (.error e, s')) :
    Settled (.error e) ∧ ∀ lookup, scan? lookup s = (.error e, s') := by
  refine ⟨?_, fun lookup => scan?_of_record_error h⟩
  rcases Scan.compositional_storeless.scan? s e (congrArg Prod.fst h) with
    ⟨field, token, rfl⟩ | ⟨failure, rfl⟩
  · exact .malformed field token
  · exact .stream failure

/-- At the end of the nodes no lookup is asked. -/
theorem scan?_of_record_end {s s' : ByteStream} (h : Record.scan? s = (.ok none, s'))
    (lookup : Lookup) : scan? lookup s = (.ok none, s') := by
  unfold scan?
  rw [Scan.bind_ok h]
  rfl

/-- An external record is a node as it stands. -/
theorem scan?_of_record_external {s s' : ByteStream} {r : Record UInt32} {calls : List Arguments}
    (h : Record.scan? s = (.ok (some r), s')) (hkind : r.kind = .external calls) :
    ∃ node : Node, node.isExternal = true ∧ ∀ lookup, scan? lookup s = (.ok (some node), s') := by
  refine ⟨⟨{ r with kind := .external calls }, .fresh (.external calls : Kind Block)⟩, rfl, ?_⟩
  intro lookup
  exact scan?_eq_some_iff_record.2 ⟨r, h, .external hkind, rfl⟩

/-- For an internal record the answer is what becomes of the answer of the lookup. -/
theorem scan?_of_record_internal {s s' : ByteStream} {r : Record UInt32} {mutation : UInt32}
    (h : Record.scan? s = (.ok (some r), s')) (hkind : r.kind = .internal mutation)
    (lookup : Lookup) :
    (scan? lookup s).2 = s' ∧
      r.Answers mutation (lookup.resolve r.address mutation) (scan? lookup s).1 := by
  have hrefused : ∀ e, r.bind lookup = .error e → scan? lookup s = (.error e, s') := by
    intro e he
    unfold scan?
    rw [Scan.bind_ok h]
    simp only [he]
    rfl
  cases hresolve : lookup.resolve r.address mutation with
  | error failure =>
    rw [hrefused (.store failure) (by simp only [Record.bind, hkind, Block.bind?, hresolve])]
    exact ⟨rfl, .failed failure⟩
  | ok found =>
    cases found with
    | none =>
      rw [hrefused (.dangling r.address mutation)
        (by simp only [Record.bind, hkind, Block.bind?, hresolve])]
      exact ⟨rfl, .missing⟩
    | some instruction =>
      by_cases haddress : instruction.address = r.address
      · have hbound : scan? lookup s =
            (.ok (some ⟨{ r with kind := .internal ⟨mutation, instruction⟩ }, {}⟩), s') :=
          scan?_eq_some_iff_record.2 ⟨r, h, .internal hkind hresolve haddress, rfl⟩
        rw [hbound]
        exact ⟨rfl, .bound haddress⟩
      · rw [hrefused (.dangling r.address mutation)
          (by simp only [Record.bind, hkind, Block.bind?, hresolve, if_neg haddress])]
        exact ⟨rfl, .misplaced haddress⟩

/-! ## Two lookups -/

/-- No lookup moves the end of a scan or changes an answer that is settled. What is not settled is
the answer to a whole internal record, read to its brace, and that answer is what a lookup makes of
the reference in the record. -/
theorem scan?_of_lookups (first second : Lookup) (s : ByteStream) :
    (scan? second s).2 = (scan? first s).2 ∧
    (Settled (scan? first s).1 → scan? second s = scan? first s) ∧
    (¬Settled (scan? first s).1 →
      ∃ text r mutation, Record.Spelled text r ∧ r.kind = .internal mutation ∧
        s.Past text (scan? first s).2 ∧ [closer] <:+ text ∧
        (∀ lookup, (scan? lookup s).2 = (scan? first s).2 ∧
          r.Answers mutation (lookup.resolve r.address mutation) (scan? lookup s).1) ∧
        ∀ lookup lookup' : Lookup,
          lookup.resolve r.address mutation = lookup'.resolve r.address mutation →
            scan? lookup s = scan? lookup' s) ∧
    (s.ending = .complete → ∀ failure, (scan? first s).1 ≠ .error (.stream failure)) := by
  -- the text decides the case before any lookup is asked
  cases hscan : Record.scan? s with
  | mk answer s' =>
    match answer with
    | .error e =>
      obtain ⟨hsettled, hall⟩ := scan?_of_record_failure hscan
      rw [hall first, hall second]
      refine ⟨rfl, fun _ => rfl, fun h => absurd hsettled h, ?_⟩
      intro hending failure he
      obtain ⟨field, token, hmalformed⟩ :=
        (Scan.compositional_textual.scan? s hending).2 e (congrArg Prod.fst hscan)
      rw [hmalformed] at he
      cases he
    | .ok none =>
      rw [scan?_of_record_end hscan first, scan?_of_record_end hscan second]
      exact ⟨rfl, fun _ => rfl, fun h => absurd .ended h, fun _ _ => nofun⟩
    | .ok (some r) =>
      cases hkind : r.kind with
      | external calls =>
        obtain ⟨node, hnode, hall⟩ := scan?_of_record_external hscan hkind
        rw [hall first, hall second]
        exact ⟨rfl, fun _ => rfl, fun h => absurd (.external hnode) h, fun _ _ => nofun⟩
      | internal mutation =>
        have hend := fun lookup => (scan?_of_record_internal hscan hkind lookup).1
        have hanswers := fun lookup => (scan?_of_record_internal hscan hkind lookup).2
        refine ⟨(hend second).trans (hend first).symm, ?_, ?_, ?_⟩
        · intro hsettled
          exact absurd hsettled (not_settled_of_answers (hanswers first))
        · intro _
          obtain ⟨text, hspelled, hpast⟩ := Record.scan?_eq_some_iff.1 hscan
          obtain ⟨init, htext, -⟩ := hspelled.exists_append
          rw [hend first]
          refine ⟨text, r, mutation, hspelled, hkind, hpast, ⟨init, htext.symm⟩, ?_, ?_⟩
          · intro lookup
            exact ⟨hend lookup, hanswers lookup⟩
          · intro lookup lookup' hresolve
            have hanswer := hanswers lookup
            rw [hresolve] at hanswer
            exact Prod.ext (hanswer.eq (hanswers lookup')) ((hend lookup).trans (hend lookup').symm)
        · intro _ failure hstream
          exact not_settled_of_answers (hanswers first) (hstream ▸ .stream failure)

end Node

end TraceGraph
