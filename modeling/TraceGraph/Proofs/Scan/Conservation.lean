import TraceGraph.Proofs.Record.Failing

/-!
# Readers conserve their streams

A reader of a stream is asked for tokens, for single bytes and for fields, in any order.
Whatever the calls are and however the stream ends, nothing is lost or given out twice
without notice.

What a call should take is said by `Front` and `Takes`, without the functions that take it:
a token is the shortest prefix that ends in the delimiter or, where there is no delimiter,
everything. As long as the stream does not fail, a call takes such a piece off the front of
what is left (`exists_takes`). It fails exactly if the stream fails before the piece ends
(`failed_iff`), and then what is left is lost and not counted (`run_of_lacks`).

> Step: the ending stays, and what is given out and what is left never add up to more than
> before
> (`conserved_step`).

> Run: the pieces in the order of the calls and what is left behind them are the stream
> (`exists_takesAll`, `TakesAll.flatten_append`).

The main result is `ReaderCall.stream_conserved`. It says of all calls at once that the
offset is the length of the pieces, that a stream which can be read to its end fails none of
them, and which calls a failing stream fails.
-/

namespace TraceGraph

/-- One call of a reader. -/
inductive ReaderCall : Type 1 where
  | token (delimiter : UInt8)
  | nextByte
  /-- A closed field as text. -/
  | text (delimiter : UInt8) (name : String)
  /-- A closed field as a value. -/
  | value {α : Type} (format : FieldFormat α) (delimiter : UInt8) (name : String)

/-- What a call answers. -/
inductive ReaderAnswer : Type 1 where
  | token (text : String) (closed : Bool)
  | byte (b : Option UInt8)
  | text (text : String)
  | value {α : Type} (a : α)
  /-- A field is not closed or stands for no value. -/
  | refused (error : RecordError)
  /-- The stream could not be read. -/
  | failed (failure : ReadFailure)

namespace ReaderAnswer

/-- The answer that the result of a scan is. -/
def ofExcept {α : Type} (answer : α → ReaderAnswer) : Except RecordError α → ReaderAnswer
  | .ok a => answer a
  | .error (.stream failure) => .failed failure
  | .error e => .refused e

inductive Failed : ReaderAnswer → Prop
  | mk (failure : ReadFailure) : Failed (.failed failure)

end ReaderAnswer

namespace ReaderCall

/-- The answer to a call, and the stream behind it. -/
def run : ReaderCall → ByteStream → ReaderAnswer × ByteStream
  | token delimiter, s =>
    let (result, s) := Scan.token delimiter s
    (.ofExcept (fun t => .token (Utf8.lossy t.text) t.closed) result, s)
  | nextByte, s =>
    let (result, s) := Scan.nextByte s
    (.ofExcept .byte result, s)
  | text delimiter name, s =>
    let (result, s) := Scan.text delimiter name s
    (.ofExcept (fun bytes => .text (Utf8.lossy bytes)) result, s)
  | value format delimiter name, s =>
    let (result, s) := Scan.field format delimiter name s
    (.ofExcept .value result, s)

/-- The answers to calls one after the other, and the stream behind the last of them. -/
def runAll : List ReaderCall → ByteStream → List ReaderAnswer × ByteStream
  | [], s => ([], s)
  | call :: calls, s =>
    let (answer, s) := call.run s
    let (answers, s) := runAll calls s
    (answer :: answers, s)

/-! ## What a call takes -/

/-- The token in front of some bytes, and the piece that is taken with it: the shortest prefix that
ends in the delimiter or, where there is no delimiter, everything. -/
inductive Front (delimiter : UInt8) (bytes : Bytes) : Token → Bytes → Prop
  | closed {text : Bytes} (hplain : delimiter ∉ text) (hbegins : text ++ [delimiter] <+: bytes)
      (hshortest : ∀ other, other ++ [delimiter] <+: bytes → text.length ≤ other.length) :
      Front delimiter bytes ⟨text, true⟩ (text ++ [delimiter])
  | whole (h : delimiter ∉ bytes) : Front delimiter bytes ⟨bytes, false⟩ bytes

/-- The call answers so and takes this piece off the front of the bytes. -/
inductive Takes (bytes : Bytes) : ReaderCall → ReaderAnswer → Bytes → Prop
  | token {delimiter : UInt8} {t : Token} {piece : Bytes} (h : Front delimiter bytes t piece) :
      Takes bytes (.token delimiter) (.token (Utf8.lossy t.text) t.closed) piece
  | byte {b : UInt8} (h : [b] <+: bytes) : Takes bytes .nextByte (.byte (some b)) [b]
  | noByte (h : bytes = []) : Takes bytes .nextByte (.byte none) []
  | text {delimiter : UInt8} {name : String} {text piece : Bytes}
      (h : Front delimiter bytes ⟨text, true⟩ piece) :
      Takes bytes (.text delimiter name) (.text (Utf8.lossy text)) piece
  | openText {delimiter : UInt8} {name : String} {text piece : Bytes}
      (h : Front delimiter bytes ⟨text, false⟩ piece) :
      Takes bytes (.text delimiter name) (.refused (.malformed name (Utf8.lossy text))) piece
  | value {α : Type} {format : FieldFormat α} {delimiter : UInt8} {name : String}
      {text piece : Bytes} {a : α} (h : Front delimiter bytes ⟨text, true⟩ piece)
      (hread : format.read? text = some a) :
      Takes bytes (.value format delimiter name) (.value a) piece
  | noValue {α : Type} {format : FieldFormat α} {delimiter : UInt8} {name : String}
      {text piece : Bytes} (h : Front delimiter bytes ⟨text, true⟩ piece)
      (hread : format.read? text = none) :
      Takes bytes (.value format delimiter name) (.refused (.malformed name (Utf8.lossy text)))
        piece
  | openValue {α : Type} {format : FieldFormat α} {delimiter : UInt8} {name : String}
      {text piece : Bytes} (h : Front delimiter bytes ⟨text, false⟩ piece) :
      Takes bytes (.value format delimiter name) (.refused (.malformed name (Utf8.lossy text)))
        piece

/-- Calls one after the other answer so, and each takes a piece off what those before it have left;
`left` is what is left in the end. -/
inductive TakesAll : Bytes → List ReaderCall → List ReaderAnswer → List Bytes → Bytes → Prop
  | nil {bytes : Bytes} : TakesAll bytes [] [] [] bytes
  | cons {piece rest left : Bytes} {call : ReaderCall} {calls : List ReaderCall}
      {answer : ReaderAnswer} {answers : List ReaderAnswer} {pieces : List Bytes}
      (head : Takes (piece ++ rest) call answer piece)
      (tail : TakesAll rest calls answers pieces left) :
      TakesAll (piece ++ rest) (call :: calls) (answer :: answers) (piece :: pieces) left

/-- The piece that the call would take does not end within the bytes. -/
def Lacks (bytes : Bytes) : ReaderCall → Prop
  | token delimiter => delimiter ∉ bytes
  | nextByte => bytes = []
  | text delimiter _ => delimiter ∉ bytes
  | value _ delimiter _ => delimiter ∉ bytes

variable {bytes piece left : Bytes} {call : ReaderCall} {calls : List ReaderCall}
  {answer : ReaderAnswer} {answers : List ReaderAnswer} {pieces : List Bytes} {s : ByteStream}

theorem front_of_append {delimiter : UInt8} {text : Bytes} (h : delimiter ∉ text) (rest : Bytes) :
    Front delimiter (text ++ [delimiter] ++ rest) ⟨text, true⟩ (text ++ [delimiter]) := by
  refine .closed h (List.prefix_append _ _) ?_
  intro other hother
  -- a shorter prefix would have the delimiter within the text
  by_contra hshorter
  have hwithin : other ++ [delimiter] <+: text := by
    refine List.prefix_of_prefix_length_le hother ?_ ?_
    · rw [List.append_assoc]
      exact List.prefix_append _ _
    · rw [List.length_append, List.length_singleton]
      omega
  exact h (hwithin.subset (List.mem_append_right _ (List.mem_singleton_self _)))

/-- A token is found unless the stream fails before it ends. -/
theorem exists_token {delimiter : UInt8} (h : s.ending = .complete ∨ delimiter ∈ s.rest) :
    ∃ t piece s', Scan.token delimiter s = (.ok t, s') ∧ Front delimiter s.rest t piece ∧
      s.Past piece s' := by
  obtain ⟨rest, ending, offset⟩ := s
  by_cases hmem : delimiter ∈ rest
  · obtain ⟨text, more, rfl, htext⟩ := List.eq_append_cons_of_mem hmem
    have hsplit : text ++ delimiter :: more = text ++ [delimiter] ++ more :=
      List.append_cons text delimiter more
    rw [hsplit]
    have hpast := ByteStream.past_mk (text ++ [delimiter]) more ending offset
    refine ⟨⟨text, true⟩, _, _, ?_, front_of_append htext more, hpast⟩
    exact Scan.token_eq_ok_iff.2 (ByteStream.token_eq_closed_iff.2 ⟨htext, hpast⟩)
  · obtain rfl : ending = .complete := h.resolve_right hmem
    have hpast : ByteStream.Past ⟨rest, .complete, offset⟩ rest
        ⟨[], .complete, offset + rest.length⟩ := ⟨(List.append_nil rest).symm, rfl, rfl⟩
    refine ⟨⟨rest, false⟩, rest, _, ?_, .whole hmem, hpast⟩
    exact Scan.token_eq_ok_iff.2 (ByteStream.token_of_not_mem hmem offset)

/-- A stream that fails within a token has nothing left, and its offset does not count what
is lost. -/
theorem token_of_lacks {delimiter : UInt8} {reason : String} (hending : s.ending = .failing reason)
    (h : delimiter ∉ s.rest) :
    Scan.token delimiter s = (.error (.stream ⟨reason⟩), { s with rest := [] }) := by
  obtain ⟨rest, ending, offset⟩ := s
  obtain rfl : ending = .failing reason := hending
  unfold Scan.token
  rw [ByteStream.token_failing h]

/-- A closed text that stands for no value is refused with that text. -/
theorem accept_of_read?_eq_none {α : Type} {format : FieldFormat α} {name : String} {text : Bytes}
    (h : format.read? text = none) :
    Scan.accept format name ⟨text, true⟩ s = Scan.malformed name text s := by
  have hclosed : Scan.closedText name ⟨text, true⟩ s = (.ok text, s) := rfl
  unfold Scan.accept
  rw [Scan.bind_ok hclosed, h]

/-- A call that takes a piece has an answer. -/
theorem Takes.not_failed (h : Takes bytes call answer piece) : ¬answer.Failed := by
  intro hfailed
  cases hfailed with
  | mk failure => cases h

/-- A call that its stream does not fail takes a piece off the front. -/
theorem exists_takes (h : s.ending = .complete ∨ ¬call.Lacks s.rest) :
    ∃ answer piece s', call.run s = (answer, s') ∧ Takes s.rest call answer piece ∧
      s.Past piece s' := by
  cases call with
  | token delimiter =>
    -- a field is its token first; whether it is closed and has a value decides the answer
    -- alone
    obtain ⟨t, piece, s', htoken, hfront, hpast⟩ := exists_token (h.imp_right not_not.1)
    refine ⟨_, piece, s', ?_, .token hfront, hpast⟩
    simp only [run, htoken]
    rfl
  | nextByte =>
    obtain ⟨rest, ending, offset⟩ := s
    cases rest with
    | nil =>
      obtain rfl : ending = .complete := h.resolve_right fun hlacks => hlacks rfl
      exact ⟨_, [], _, rfl, .noByte rfl, ⟨rfl, rfl, rfl⟩⟩
    | cons b rest =>
      exact ⟨_, [b], _, rfl, .byte (List.prefix_append [b] rest), ⟨rfl, rfl, rfl⟩⟩
  | text delimiter name =>
    obtain ⟨⟨text, closed⟩, piece, s', htoken, hfront, hpast⟩ :=
      exists_token (h.imp_right not_not.1)
    have hscan : Scan.text delimiter name s = Scan.closedText name ⟨text, closed⟩ s' :=
      Scan.bind_ok htoken
    cases closed with
    | true =>
      refine ⟨_, piece, s', ?_, .text hfront, hpast⟩
      simp only [run, hscan]
      rfl
    | false =>
      refine ⟨_, piece, s', ?_, .openText hfront, hpast⟩
      simp only [run, hscan]
      rfl
  | value format delimiter name =>
    obtain ⟨⟨text, closed⟩, piece, s', htoken, hfront, hpast⟩ :=
      exists_token (h.imp_right not_not.1)
    have hscan : Scan.field format delimiter name s = Scan.accept format name ⟨text, closed⟩ s' :=
      Scan.bind_ok htoken
    cases closed with
    | false =>
      refine ⟨_, piece, s', ?_, .openValue hfront, hpast⟩
      simp only [run, hscan]
      rfl
    | true =>
      cases hread : format.read? text with
      | some a =>
        have haccept : Scan.accept format name ⟨text, true⟩ s' = (.ok a, s') :=
          Scan.accept_eq_ok_iff.2 ⟨rfl, hread, rfl⟩
        refine ⟨_, piece, s', ?_, .value hfront hread, hpast⟩
        simp only [run, hscan, haccept]
        rfl
      | none =>
        refine ⟨_, piece, s', ?_, .noValue hfront hread, hpast⟩
        simp only [run, hscan, accept_of_read?_eq_none hread]
        rfl

/-- A call that its stream fails loses what was left, and does not count it. -/
theorem run_of_lacks {reason : String} (hending : s.ending = .failing reason)
    (h : call.Lacks s.rest) : call.run s = (.failed ⟨reason⟩, { s with rest := [] }) := by
  cases call with
  | token delimiter =>
    simp only [run, token_of_lacks hending h]
    rfl
  | nextByte =>
    obtain ⟨rest, ending, offset⟩ := s
    obtain rfl : ending = .failing reason := hending
    obtain rfl : rest = [] := h
    rfl
  | text delimiter name =>
    have hscan : Scan.text delimiter name s = _ := Scan.bind_error (token_of_lacks hending h)
    simp only [run, hscan]
    rfl
  | value format delimiter name =>
    have hscan : Scan.field format delimiter name s = _ :=
      Scan.bind_error (token_of_lacks hending h)
    simp only [run, hscan]
    rfl

/-- A call is failed by streams that fail before its piece ends, and by no others. -/
theorem failed_iff (call : ReaderCall) (s : ByteStream) :
    (call.run s).1.Failed ↔ (∃ reason, s.ending = .failing reason) ∧ call.Lacks s.rest := by
  refine ⟨?_, ?_⟩
  · intro hfailed
    by_contra hnot
    have h : s.ending = .complete ∨ ¬call.Lacks s.rest := by
      cases hending : s.ending with
      | complete => exact .inl rfl
      | failing reason => exact .inr fun hlacks => hnot ⟨⟨reason, hending⟩, hlacks⟩
    obtain ⟨answer, piece, s', hrun, htakes, -⟩ := exists_takes h
    rw [hrun] at hfailed
    exact htakes.not_failed hfailed
  · intro ⟨⟨reason, hending⟩, hlacks⟩
    rw [run_of_lacks hending hlacks]
    exact .mk _

/-- A call that has not failed met a stream that is complete or holds its whole piece. -/
theorem complete_or_of_not_failed (h : ¬(call.run s).1.Failed) :
    s.ending = .complete ∨ ¬call.Lacks s.rest := by
  rw [failed_iff] at h
  cases hending : s.ending with
  | complete => exact .inl rfl
  | failing reason => exact .inr fun hlacks => h ⟨⟨reason, hending⟩, hlacks⟩

/-! ## Calls one after the other -/

/-- The pieces in the order of the calls, and what is left, are the stream. -/
theorem TakesAll.flatten_append (h : TakesAll bytes calls answers pieces left) :
    pieces.flatten ++ left = bytes := by
  induction h with
  | nil => rfl
  | cons head tail ih => rw [List.flatten_cons, List.append_assoc, ih]

/-- Calls that their stream does not fail take a piece each. -/
theorem exists_takesAll (h : ∀ answer ∈ (runAll calls s).1, ¬answer.Failed) :
    ∃ pieces, TakesAll s.rest calls (runAll calls s).1 pieces (runAll calls s).2.rest ∧
      s.Past pieces.flatten (runAll calls s).2 := by
  induction calls generalizing s with
  | nil => exact ⟨[], .nil, ByteStream.past_nil_iff.2 rfl⟩
  | cons call calls ih =>
    have hfirst := h (call.run s).1 (List.mem_cons_self ..)
    obtain ⟨answer, piece, s₁, hrun, htakes, hpast⟩ :=
      exists_takes (complete_or_of_not_failed hfirst)
    have hsteps : runAll (call :: calls) s =
        (answer :: (runAll calls s₁).1, (runAll calls s₁).2) := by
      rw [runAll, hrun]
    rw [hsteps] at h ⊢
    obtain ⟨pieces, hall, hpasts⟩ := ih fun a ha => h a (List.mem_cons_of_mem _ ha)
    rw [hpast.rest] at htakes ⊢
    exact ⟨piece :: pieces, .cons htakes hall, hpast.trans hpasts⟩

/-- Nothing that a stream gives out is counted twice, and its ending stays. -/
theorem conserved_step (call : ReaderCall) (s : ByteStream) :
    (call.run s).2.ending = s.ending ∧
      (call.run s).2.offset + (call.run s).2.rest.length ≤ s.offset + s.rest.length := by
  by_cases hfailed : (call.run s).1.Failed
  · obtain ⟨⟨reason, hending⟩, hlacks⟩ := (failed_iff call s).1 hfailed
    rw [run_of_lacks hending hlacks]
    exact ⟨rfl, Nat.add_le_add_left (Nat.zero_le _) _⟩
  · obtain ⟨answer, piece, s', hrun, -, hpast⟩ :=
      exists_takes (complete_or_of_not_failed hfailed)
    rw [hrun]
    refine ⟨hpast.ending, Nat.le_of_eq ?_⟩
    rw [hpast.rest, hpast.offset, List.length_append, Nat.add_assoc]

/-- What one call conserves is conserved by calls after each other. -/
theorem conserved_run (calls : List ReaderCall) (s : ByteStream) :
    (runAll calls s).2.ending = s.ending ∧
      (runAll calls s).2.offset + (runAll calls s).2.rest.length ≤ s.offset + s.rest.length := by
  induction calls generalizing s with
  | nil => exact ⟨rfl, Nat.le_refl _⟩
  | cons call calls ih =>
    obtain ⟨hending, hle⟩ := conserved_step call s
    obtain ⟨hendings, hles⟩ := ih (call.run s).2
    exact ⟨hendings.trans hending, Nat.le_trans hles hle⟩

/-- A stream that can be read to its end fails no call. -/
theorem not_failed_of_complete (hending : s.ending = .complete) :
    ∀ answer ∈ (runAll calls s).1, ¬answer.Failed := by
  induction calls generalizing s with
  | nil => exact nofun
  | cons call calls ih =>
    intro answer hanswer
    rcases List.mem_cons.1 hanswer with rfl | hanswer
    · intro hfailed
      obtain ⟨⟨reason, hfailing⟩, -⟩ := (failed_iff call s).1 hfailed
      cases hending.symm.trans hfailing
    · exact ih ((conserved_step call s).1.trans hending) answer hanswer

/-- Whatever calls are made on a stream, as long as none of them fails the pieces that they take and
what is left behind them are the stream, and the offset is the length of the pieces. Only a stream
that fails can fail a call, and it fails those whose piece does not end before the failure; what was
left is then gone, but the offset stays. So the offset is never more than what is gone. -/
theorem stream_conserved (bytes : Bytes) (ending : Ending) (calls : List ReaderCall) :
    let answers := (runAll calls ⟨bytes, ending, 0⟩).1
    let s := (runAll calls ⟨bytes, ending, 0⟩).2
    ((∀ answer ∈ answers, ¬answer.Failed) →
      ∃ pieces, TakesAll bytes calls answers pieces s.rest ∧
        pieces.flatten ++ s.rest = bytes ∧ s.offset = pieces.flatten.length) ∧
    (ending = .complete → ∀ answer ∈ answers, ¬answer.Failed) ∧
    (∀ call : ReaderCall,
      ((call.run s).1.Failed ↔ (∃ reason, ending = .failing reason) ∧ call.Lacks s.rest) ∧
      ((call.run s).1.Failed → (call.run s).2.rest = [] ∧ (call.run s).2.offset = s.offset)) ∧
    s.offset + s.rest.length ≤ bytes.length := by
  intro answers s
  obtain ⟨hending, hle⟩ := conserved_run calls ⟨bytes, ending, 0⟩
  refine ⟨?_, fun hcomplete => not_failed_of_complete hcomplete, ?_, ?_⟩
  · intro hanswered
    obtain ⟨pieces, hall, hpast⟩ := exists_takesAll hanswered
    refine ⟨pieces, hall, hall.flatten_append, ?_⟩
    rw [hpast.offset, Nat.zero_add]
  · intro call
    have hfailed := failed_iff call s
    rw [show s.ending = ending from hending] at hfailed
    refine ⟨hfailed, ?_⟩
    intro h
    obtain ⟨⟨reason, hfailing⟩, hlacks⟩ := hfailed.1 h
    rw [run_of_lacks (hending.trans hfailing) hlacks]
    exact ⟨rfl, rfl⟩
  · rw [Nat.zero_add] at hle
    exact hle

/-- A lost token was not taken: the offset stays behind the byte and the token in front of it. -/
example : (runAll [.nextByte, .token comma, .token closer] ⟨[0, 1, comma, 2], .failing "", 0⟩).2 =
    ⟨[], .failing "", 3⟩ := rfl

end ReaderCall

end TraceGraph
