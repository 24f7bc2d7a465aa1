import TraceGraph.Proofs.Record.Stream
import TraceGraph.Proofs.Scan.Compositional

/-!
# Streams that fail

A stream can fail after it has given out some bytes, and a reader then must not make up an
answer from what it has. What is left before the failure either decides a scan or starves
it:

> `Decided`: the answer is the same whatever stands behind, and nothing behind is taken.

> `Starved`: the scan fails with the stream, and on every longer stream it would take more.

A scan for which there are only these two cases, for everything that can be left, is `Cut`.
Tokens and single bytes are (`cut_token`, `cut_nextByte`), and running one scan after
another keeps it: what the first scan leaves decides or starves the second one (`Cut.bind`).
So the scan of a node is (`Node.cut_scan?`). What the lookup answers adds no third case, for
it is never the failure of a stream (`Record.bind_ne_stream`).

Whether a scan is starved can be seen on the complete stream as well: there it looks at the
place of the failure or behind it (`Looks`). The induction is over the number of scans. As
long as none has looked there, both streams are at one place (`exists_left`); the first that
does fails, and so does every later one (`exists_failed`). The main result is
`Node.scanMany_failing`.
-/

namespace TraceGraph

namespace ByteStream

/-- A token never takes a stream back. -/
theorem offset_token_le (delimiter : UInt8) (s : ByteStream) :
    s.offset ≤ (s.token delimiter).2.offset := by
  unfold token
  split
  next => exact Nat.le_trans (Nat.le_add_right ..) (Nat.le_succ _)
  next =>
    split
    next => exact Nat.le_add_right ..
    next => exact Nat.le_refl _

/-- A text without the delimiter is lost to a failure behind it. -/
theorem token_failing {delimiter : UInt8} {text : Bytes} (h : delimiter ∉ text) (reason : String)
    (offset : Nat) :
    token delimiter ⟨text, .failing reason, offset⟩ =
      (.error ⟨reason⟩, ⟨[], .failing reason, offset⟩) := by
  have hpos : ∀ b ∈ text, (b != delimiter) = true := fun b hb =>
    bne_iff_ne.2 fun e => h (e ▸ hb)
  have hdrop : text.dropWhile (· != delimiter) = [] := by
    rw [← List.append_nil text, List.dropWhile_append_of_pos hpos]
    rfl
  simp [token, hdrop]

/-- A token that is not closed by `front` takes something behind it where there is something. -/
theorem lt_offset_token {delimiter : UInt8} {front more : Bytes} (h : delimiter ∉ front)
    (hmore : more ≠ []) (offset : Nat) :
    offset + front.length < (token delimiter ⟨front ++ more, .complete, offset⟩).2.offset := by
  by_cases hmem : delimiter ∈ more
  · obtain ⟨text, rest, rfl, htext⟩ := List.eq_append_cons_of_mem hmem
    have hclosed : delimiter ∉ front ++ text := by
      rw [List.mem_append, not_or]
      exact ⟨h, htext⟩
    rw [← List.append_assoc, token_append hclosed, List.length_append]
    dsimp only
    omega
  · have hopen : delimiter ∉ front ++ more := by
      rw [List.mem_append, not_or]
      exact ⟨h, hmem⟩
    have hlength := List.length_pos_iff.2 hmore
    rw [token_of_not_mem hopen, List.length_append]
    dsimp only
    omega

theorem offset_nextByte_le (s : ByteStream) : s.offset ≤ s.nextByte.2.offset := by
  unfold nextByte
  split
  next => exact Nat.le_succ _
  next =>
    split
    next => exact Nat.le_refl _
    next => exact Nat.le_refl _

end ByteStream

namespace Scan

variable {α β : Type}

/-- The scan finds its answer within `front`: it takes `taken` and leaves `left`, whatever stands
behind them. -/
structure Decided (x : Scan α) (front : Bytes) (offset : Nat) (answer : Except RecordError α)
    (taken left : Bytes) : Prop where
  front_eq : front = taken ++ left
  scan_eq : ∀ more ending, x ⟨front ++ more, ending, offset⟩ =
    (answer, ⟨left ++ more, ending, offset + taken.length⟩)
  answered : ∀ failure, answer ≠ .error (.stream failure)

/-- The scan finds no answer within `front`: it fails where the stream does, and takes something
behind `front` where there is something. -/
structure Starved (x : Scan α) (front : Bytes) (offset : Nat) : Prop where
  fails : ∀ reason, ∃ offset',
    x ⟨front, .failing reason, offset⟩ = (.error (.stream ⟨reason⟩), ⟨[], .failing reason, offset'⟩)
  takes : ∀ more, more ≠ [] →
    offset + front.length < (x ⟨front ++ more, .complete, offset⟩).2.offset

/-- What is left before a failure decides the scan or starves it. -/
structure Cut (x : Scan α) : Prop where
  offset_le : ∀ s, s.offset ≤ (x s).2.offset
  cases : ∀ front offset, (∃ answer taken left, x.Decided front offset answer taken left) ∨
    x.Starved front offset

/-- A value is decided by nothing. -/
theorem cut_pure (a : α) : Cut (Pure.pure a : Scan α) where
  offset_le _ := Nat.le_refl _
  cases front _ := .inl ⟨.ok a, [], front, rfl, fun _ _ => rfl, nofun⟩

/-- A complaint is decided at once, as long as it is not taken for the failure of the
stream. -/
theorem cut_fail {e : RecordError} (h : ∀ failure, e ≠ .stream failure) :
    Cut (fail e : Scan α) where
  offset_le _ := Nat.le_refl _
  cases front _ := .inl ⟨.error e, [], front, rfl, fun _ _ => rfl,
    fun failure he => h failure (Except.error.inj he)⟩

/-! ## One scan after another -/

/-- Two scans take at least what the first one takes. -/
theorem offset_le_bind {x : Scan α} {f : α → Scan β} {s : ByteStream}
    (hf : ∀ a s, s.offset ≤ (f a s).2.offset) : (x s).2.offset ≤ ((x >>= f) s).2.offset := by
  cases hxs : x s with
  | mk answer s₁ =>
    cases answer with
    | ok a =>
      rw [bind_ok hxs]
      exact hf a s₁
    | error e =>
      have hbind : (x >>= f) s = (.error e, s₁) := bind_error hxs
      simp only [hbind, Nat.le_refl]

/-- What the first scan leaves decides the second one, so both together are decided. -/
theorem Decided.bind {x : Scan α} {f : α → Scan β} {front taken left : Bytes} {offset : Nat}
    {a : α} (hx : x.Decided front offset (.ok a) taken left) {answer : Except RecordError β}
    {taken' left' : Bytes}
    (hf : (f a).Decided left (offset + taken.length) answer taken' left') :
    (x >>= f).Decided front offset answer (taken ++ taken') left' where
  front_eq := by rw [hx.front_eq, hf.front_eq, List.append_assoc]
  scan_eq := by
    intro more ending
    rw [bind_ok (hx.scan_eq more ending), hf.scan_eq, List.length_append, Nat.add_assoc]
  answered := hf.answered

/-- A complaint of the first scan is the answer of both. -/
theorem Decided.bind_error {x : Scan α} {f : α → Scan β} {front taken left : Bytes} {offset : Nat}
    {e : RecordError} (hx : x.Decided front offset (.error e) taken left) :
    (x >>= f).Decided front offset (.error e) taken left where
  front_eq := hx.front_eq
  scan_eq more ending := Scan.bind_error (hx.scan_eq more ending)
  answered failure he := hx.answered failure (congrArg Except.error (Except.error.inj he))

/-- What the first scan leaves starves the second one. -/
theorem Decided.bind_starved {x : Scan α} {f : α → Scan β} {front taken left : Bytes}
    {offset : Nat} {a : α} (hx : x.Decided front offset (.ok a) taken left)
    (hf : (f a).Starved left (offset + taken.length)) : (x >>= f).Starved front offset where
  fails := by
    intro reason
    have hscan := hx.scan_eq [] (.failing reason)
    rw [List.append_nil, List.append_nil] at hscan
    rw [bind_ok hscan]
    exact hf.fails reason
  takes := by
    intro more hmore
    have htakes := hf.takes more hmore
    rw [bind_ok (hx.scan_eq more .complete)]
    rw [hx.front_eq, List.length_append]
    omega

/-- A starved scan starves whatever is behind it. -/
theorem Starved.bind {x : Scan α} {f : α → Scan β} {front : Bytes} {offset : Nat}
    (hx : x.Starved front offset) (hf : ∀ a s, s.offset ≤ (f a s).2.offset) :
    (x >>= f).Starved front offset where
  fails := by
    intro reason
    obtain ⟨offset', hfails⟩ := hx.fails reason
    exact ⟨offset', Scan.bind_error hfails⟩
  takes := by
    intro more hmore
    exact Nat.lt_of_lt_of_le (hx.takes more hmore) (offset_le_bind hf)

/-- The first scan complains, or both are decided, or one of them is starved: the first by
what is there, the second by what the first has left. -/
theorem Cut.bind {x : Scan α} {f : α → Scan β} (hx : Cut x) (hf : ∀ a, Cut (f a)) :
    Cut (x >>= f) := by
  have hf_le := fun a => (hf a).offset_le
  refine ⟨fun s => Nat.le_trans (hx.offset_le s) (offset_le_bind hf_le), ?_⟩
  intro front offset
  rcases hx.cases front offset with ⟨answer, taken, left, hdecided⟩ | hstarved
  · cases answer with
    | error e => exact .inl ⟨_, _, _, hdecided.bind_error⟩
    | ok a =>
      rcases (hf a).cases left (offset + taken.length) with
        ⟨answer, taken', left', hdecided'⟩ | hstarved'
      · exact .inl ⟨_, _, _, hdecided.bind hdecided'⟩
      · exact .inr (hdecided.bind_starved hstarved')
  · exact .inr (hstarved.bind hf_le)

/-! ## Tokens and bytes -/

theorem snd_token (delimiter : UInt8) (s : ByteStream) :
    (token delimiter s).2 = (s.token delimiter).2 := by
  unfold token
  cases s.token delimiter with
  | mk answer s₁ =>
    cases answer with
    | ok t => rfl
    | error failure => rfl

/-- A token is decided by its delimiter, and starved without it. -/
theorem cut_token (delimiter : UInt8) : Cut (token delimiter) where
  offset_le s := by
    rw [snd_token]
    exact s.offset_token_le delimiter
  cases front offset := by
    by_cases hmem : delimiter ∈ front
    · obtain ⟨text, left, rfl, htext⟩ := List.eq_append_cons_of_mem hmem
      refine .inl ⟨.ok ⟨text, true⟩, text ++ [delimiter], left, ?_, ?_, nofun⟩
      · rw [List.append_assoc]
        rfl
      · intro more ending
        rw [token_eq_ok_iff, List.append_assoc, List.length_append, ← Nat.add_assoc]
        exact ByteStream.token_append htext (left ++ more) ending offset
    · refine .inr ⟨?_, ?_⟩
      · intro reason
        refine ⟨offset, ?_⟩
        unfold token
        rw [ByteStream.token_failing hmem]
      · intro more hmore
        rw [snd_token]
        exact ByteStream.lt_offset_token hmem hmore offset

theorem cut_nextByte : Cut nextByte where
  offset_le s := by
    have hle := s.offset_nextByte_le
    unfold nextByte
    split
    all_goals
      next heq => rwa [heq] at hle
  cases front offset := by
    cases front with
    | nil =>
      refine .inr ⟨fun reason => ⟨offset, rfl⟩, ?_⟩
      intro more hmore
      cases more with
      | nil => exact absurd rfl hmore
      | cons b more => exact Nat.lt_succ_self offset
    | cons b left => exact .inl ⟨.ok (some b), [b], left, rfl, fun _ _ => rfl, nofun⟩

theorem compositional_cut : Compositional Cut where
  pure := cut_pure
  malformed _ _ := cut_fail nofun
  bind := Cut.bind
  token := cut_token
  nextByte := cut_nextByte

/-! ## Looking behind a place -/

/-- The scan looks at the position `n` or behind it: it takes the byte there, or the stream ends
there and the scan would have taken a byte. -/
inductive Looks (x : Scan α) (s : ByteStream) (n : Nat) : Prop
  | byte (h : n < (x s).2.offset)
  | ending (b : UInt8) (hend : s.offset + s.rest.length = n)
      (h : n < (x { s with rest := s.rest ++ [b] }).2.offset)

/-- A decided scan does not look behind what has decided it. -/
theorem Decided.not_looks {x : Scan α} {front taken left : Bytes} {offset : Nat}
    {answer : Except RecordError α} (h : x.Decided front offset answer taken left) (more : Bytes) :
    ¬x.Looks ⟨front ++ more, .complete, offset⟩ (offset + front.length) := by
  have hlength := congrArg List.length h.front_eq
  rw [List.length_append] at hlength
  intro hlooks
  cases hlooks with
  | byte hbyte =>
    rw [h.scan_eq] at hbyte
    dsimp only at hbyte
    omega
  | ending b _ hbyte =>
    dsimp only at hbyte
    rw [List.append_assoc, h.scan_eq] at hbyte
    dsimp only at hbyte
    omega

/-- A starved scan does. -/
theorem Starved.looks {x : Scan α} {front : Bytes} {offset : Nat} (h : x.Starved front offset)
    (more : Bytes) : x.Looks ⟨front ++ more, .complete, offset⟩ (offset + front.length) := by
  by_cases hmore : more = []
  · subst hmore
    rw [List.append_nil]
    exact .ending 0 rfl (h.takes [0] (List.cons_ne_nil _ _))
  · exact .byte (h.takes more hmore)

end Scan

/-- What a store answers is never mistaken for a failure of the stream. -/
theorem Record.bind_ne_stream {lookup : Lookup} {r : Record UInt32} {e : RecordError}
    (h : r.bind lookup = .error e) (failure : ReadFailure) : e ≠ .stream failure := by
  intro he
  subst he
  unfold bind at h
  split at h
  next => cases h
  next =>
    split at h
    · cases h
    · cases h
    · cases h

namespace Node

variable {lookup : Lookup} {front more : Bytes} {k : Nat}

/-- The scan of a node is decided or starved by whatever is left of a stream. -/
theorem cut_scan? (lookup : Lookup) : (scan? lookup).Cut := by
  refine Scan.compositional_cut.scan?.bind fun r => ?_
  cases r with
  | none => exact Scan.cut_pure none
  | some r =>
    cases hr : r.bind lookup with
    | error e =>
      simp only [hr]
      exact Scan.cut_fail (Record.bind_ne_stream hr)
    | ok bound =>
      simp only [hr]
      exact Scan.cut_pure _

/-- A stream that has failed goes on to fail. -/
theorem scan?_failed (lookup : Lookup) (reason : String) (offset : Nat) :
    scan? lookup ⟨[], .failing reason, offset⟩ =
      (.error (.stream ⟨reason⟩), ⟨[], .failing reason, offset⟩) := rfl

theorem scanMany_succ_snd (lookup : Lookup) (k : Nat) (s : ByteStream) :
    (scanMany lookup (k + 1) s).2 = (scan? lookup (scanMany lookup k s).2).2 := by
  rw [scanMany_add]
  rfl

/-- A scan that looks at nothing behind what is left has one answer on both streams. -/
theorem scan?_of_not_looks {left more : Bytes} {offset : Nat} (h : ¬(scan? lookup).Looks
      ⟨left ++ more, .complete, offset⟩ (offset + left.length)) (reason : String) :
    ∃ answer taken left', left = taken ++ left' ∧ (∀ failure, answer ≠ .error (.stream failure)) ∧
      scan? lookup ⟨left, .failing reason, offset⟩ =
        (answer, ⟨left', .failing reason, offset + taken.length⟩) ∧
      scan? lookup ⟨left ++ more, .complete, offset⟩ =
        (answer, ⟨left' ++ more, .complete, offset + taken.length⟩) := by
  rcases (cut_scan? lookup).cases left offset with ⟨answer, taken, left', hdecided⟩ | hstarved
  · have hfailing := hdecided.scan_eq [] (.failing reason)
    rw [List.append_nil, List.append_nil] at hfailing
    exact ⟨answer, taken, left', hdecided.front_eq, hdecided.answered, hfailing,
      hdecided.scan_eq more .complete⟩
  · exact absurd (hstarved.looks more) h

/-- A scan that looks at the place of the failure fails with the stream. -/
theorem scan?_of_looks {left more : Bytes} {offset : Nat} (h : (scan? lookup).Looks
      ⟨left ++ more, .complete, offset⟩ (offset + left.length)) (reason : String) :
    ∃ offset', scan? lookup ⟨left, .failing reason, offset⟩ =
      (.error (.stream ⟨reason⟩), ⟨[], .failing reason, offset'⟩) := by
  rcases (cut_scan? lookup).cases left offset with ⟨answer, taken, left', hdecided⟩ | hstarved
  · exact absurd h (hdecided.not_looks more)
  · exact hstarved.fails reason

/-! ## Repeated scans of a stream that fails -/

/-- As long as no scan has looked at the place of the failure, both streams are at one place. -/
theorem exists_left (reason : String) (h : ∀ j < k, ¬(scan? lookup).Looks
      (scanMany lookup j ⟨front ++ more, .complete, 0⟩).2 front.length) :
    ∃ taken left, front = taken ++ left ∧
      (scanMany lookup k ⟨front, .failing reason, 0⟩).2 = ⟨left, .failing reason, taken.length⟩ ∧
      (scanMany lookup k ⟨front ++ more, .complete, 0⟩).2 =
        ⟨left ++ more, .complete, taken.length⟩ := by
  induction k with
  | zero => exact ⟨[], front, rfl, rfl, rfl⟩
  | succ k ih =>
    obtain ⟨taken, left, rfl, hfailing, hcomplete⟩ := ih fun j hj => h j (Nat.lt_succ_of_lt hj)
    have hlast := h k (Nat.lt_succ_self k)
    rw [hcomplete, List.length_append] at hlast
    obtain ⟨answer, taken', left', rfl, -, hscan, hscan'⟩ := scan?_of_not_looks hlast reason
    refine ⟨taken ++ taken', left', (List.append_assoc ..).symm, ?_, ?_⟩
    · rw [scanMany_succ_snd, hfailing, hscan, List.length_append]
    · rw [scanMany_succ_snd, hcomplete, hscan', List.length_append]

/-- The first scan that looks there fails. -/
theorem exists_failed_of_first (reason : String) (hbefore : ∀ j < k, ¬(scan? lookup).Looks
      (scanMany lookup j ⟨front ++ more, .complete, 0⟩).2 front.length)
    (h : (scan? lookup).Looks
      (scanMany lookup k ⟨front ++ more, .complete, 0⟩).2 front.length) :
    ∃ offset, scan? lookup (scanMany lookup k ⟨front, .failing reason, 0⟩).2 =
      (.error (.stream ⟨reason⟩), ⟨[], .failing reason, offset⟩) := by
  obtain ⟨taken, left, rfl, hfailing, hcomplete⟩ := exists_left reason hbefore
  rw [hcomplete, List.length_append] at h
  rw [hfailing]
  exact scan?_of_looks h reason

/-- Once a scan has looked there, the scans of the failing stream fail. -/
theorem exists_failed (reason : String) {j : Nat} (hj : j ≤ k) (h : (scan? lookup).Looks
      (scanMany lookup j ⟨front ++ more, .complete, 0⟩).2 front.length) :
    ∃ offset, scan? lookup (scanMany lookup k ⟨front, .failing reason, 0⟩).2 =
      (.error (.stream ⟨reason⟩), ⟨[], .failing reason, offset⟩) := by
  -- either an earlier scan has looked there and has failed, or the last one is the first to
  -- look
  induction k generalizing j with
  | zero =>
    obtain rfl := Nat.le_zero.1 hj
    exact exists_failed_of_first reason nofun h
  | succ k ih =>
    by_cases hbefore : ∃ i ≤ k, (scan? lookup).Looks
        (scanMany lookup i ⟨front ++ more, .complete, 0⟩).2 front.length
    · obtain ⟨i, hi, hlooks⟩ := hbefore
      obtain ⟨offset, hfailed⟩ := ih hi hlooks
      refine ⟨offset, ?_⟩
      rw [scanMany_succ_snd, hfailed]
      exact scan?_failed lookup reason offset
    · have hfirst : ¬j ≤ k := fun hjk => hbefore ⟨j, hjk, h⟩
      obtain rfl : j = k + 1 := by omega
      exact exists_failed_of_first reason
        (fun i hi hlooks => hbefore ⟨i, Nat.le_of_lt_succ hi, hlooks⟩) h

/-- The scans of a stream that fails behind `front` agree with those of a complete stream that
begins with `front`, in their answers and in where they stop, up to the first of these that looks at
the place of the failure. From that one on they fail as the stream does, and before it they do not.
So an answer that is not the failure of the stream is one that every such complete stream gives. -/
theorem scanMany_failing (lookup : Lookup) (front more : Bytes) (reason : String) (k : Nat) :
    let failing : ByteStream := ⟨front, .failing reason, 0⟩
    let complete : ByteStream := ⟨front ++ more, .complete, 0⟩
    let last (s : ByteStream) := scan? lookup (scanMany lookup k s).2
    let looks (j : Nat) := (scan? lookup).Looks (scanMany lookup j complete).2 front.length
    ((∀ j ≤ k, ¬looks j) → (last failing).1 = (last complete).1 ∧
      (last failing).2.offset = (last complete).2.offset ∧
      ∀ failure, (last failing).1 ≠ .error (.stream failure)) ∧
    ((∃ j ≤ k, looks j) → (last failing).1 = .error (.stream ⟨reason⟩)) ∧
    ((last failing).1 = (last complete).1 ∨ (last failing).1 = .error (.stream ⟨reason⟩)) := by
  intro failing complete last looks
  have hagree : (∀ j ≤ k, ¬looks j) → (last failing).1 = (last complete).1 ∧
      (last failing).2.offset = (last complete).2.offset ∧
      ∀ failure, (last failing).1 ≠ .error (.stream failure) := by
    intro hnone
    obtain ⟨taken, left, hfront, hfailing, hcomplete⟩ :=
      exists_left reason fun j hj => hnone j (Nat.le_of_lt hj)
    have hlast : ¬(scan? lookup).Looks _ _ := hnone k (Nat.le_refl k)
    rw [hcomplete, hfront, List.length_append] at hlast
    obtain ⟨answer, taken', left', -, hanswered, hscan, hscan'⟩ := scan?_of_not_looks hlast reason
    dsimp only [last, failing, complete]
    rw [hfailing, hcomplete, hscan, hscan']
    exact ⟨rfl, rfl, hanswered⟩
  have hfail : (∃ j ≤ k, looks j) → (last failing).1 = .error (.stream ⟨reason⟩) := by
    intro hlooks
    obtain ⟨j, hj, hlooks⟩ := hlooks
    obtain ⟨offset, hfailed⟩ := exists_failed reason hj hlooks
    exact congrArg Prod.fst hfailed
  refine ⟨hagree, hfail, ?_⟩
  -- nothing else can happen, so the last part follows from the first two
  by_cases hlooks : ∃ j ≤ k, looks j
  · exact .inr (hfail hlooks)
  · exact .inl (hagree fun j hj h => hlooks ⟨j, hj, h⟩).1

/-- The end marker may only be taken for the end of the records where the stream is known to end. -/
example : scan? (.failing "") ⟨endMarker, .failing "device lost", 0⟩ =
    (.error (.stream ⟨"device lost"⟩), ⟨[], .failing "device lost", 0⟩) := by
  rfl

end Node

end TraceGraph
