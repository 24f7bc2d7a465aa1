import TraceGraph.Proofs.Record.Stream
import TraceGraph.Proofs.Scan.Compositional

/-!
# Streams that are cut short

A stream that ends too early is never read as if it were whole. The text of a record is not
the beginning of another one, since one scan cannot end at two places
(`Spelled.eq_of_append_eq`), and none begins as the end marker does (`Spelled.head?_ne`). So
a scan of a stream that ends within a record or within the end marker finds neither. That
leaves a failure, and on a stream that can be read to its end a scan fails for the text only
(`Scan.Textual`):

> `exists_malformed_of_not_prefix`: what begins neither with a record nor with the end
> marker is
> malformed.

From this the two cases of a cut follow (`scan?_take_of_spelled`, `scan?_take_endMarker`). A
cut through many texts is a cut through one of them, with whole texts in front
(`Bytes.exists_take_flatten`), so a stream of nodes that is cut short is read up to the last
node that is whole, and no further:

> `Node.scanMany_take`: the nodes that are whole are read, and what is left of the stream is
> malformed.

The last theorem is about the other side. A sink with limited room takes the beginning of
what is written and tells that something was lost (`Sink.write_limited`).
-/

namespace TraceGraph

namespace ByteStream

/-- An open token is all that is left of a complete stream. -/
theorem token_eq_open_iff {delimiter : UInt8} {s s' : ByteStream} {text : Bytes} :
    s.token delimiter = (.ok ⟨text, false⟩, s') ↔
      delimiter ∉ text ∧ s.ending = .complete ∧ s.Past text s' ∧ s'.rest = [] := by
  refine ⟨?_, ?_⟩
  · intro h
    unfold token at h
    split at h
    next => cases (Prod.mk.inj h).1
    next hdrop =>
      split at h
      next hending =>
        obtain ⟨htoken, rfl⟩ := Prod.mk.inj h
        have htext : s.rest.takeWhile (· != delimiter) = text :=
          (Token.mk.inj (Except.ok.inj htoken)).1
        have hrest : s.rest = text := by
          rw [← List.takeWhile_append_dropWhile (p := (· != delimiter)) (l := s.rest), hdrop, htext,
            List.append_nil]
        refine ⟨?_, hending, ⟨?_, rfl, ?_⟩, rfl⟩
        · intro hmem
          rw [← htext] at hmem
          exact absurd (List.all_eq_true.1 List.all_takeWhile _ hmem) (by simp)
        · rw [List.append_nil]
          exact hrest
        · show s.offset + (s.rest.takeWhile (· != delimiter)).length = _
          rw [htext]
      next => cases (Prod.mk.inj h).1
  · intro h
    obtain ⟨hmem, hending, hpast, hrest⟩ := h
    obtain ⟨hs, hs'⟩ := hpast.eq_mk
    rw [hs, hs', hrest, hending, List.append_nil]
    exact token_of_not_mem hmem s.offset

end ByteStream

namespace Record

/-- The end of the records is found where the end marker closes the stream or stands before an
opening brace. -/
theorem scan?_eq_none_iff {s s' : ByteStream} :
    scan? s = (.ok none, s') ↔
      s.Past (endMarker ++ [opener]) s' ∨
        (s.ending = .complete ∧ s.Past endMarker s' ∧ s'.rest = []) := by
  have htoken : scan? s = (.ok none, s') ↔
      ∃ closed, s.token opener = (.ok ⟨endMarker, closed⟩, s') := by
    refine ⟨?_, ?_⟩
    · intro h
      obtain ⟨⟨text, closed⟩, s₁, htoken, h⟩ := Scan.exists_of_bind_ok h
      split at h
      next hmarker =>
        obtain ⟨-, rfl⟩ := Prod.mk.inj h
        obtain rfl : text = endMarker := hmarker
        exact ⟨closed, Scan.token_eq_ok_iff.1 htoken⟩
      next =>
        obtain ⟨index, s₂, -, h⟩ := Scan.exists_of_bind_ok h
        obtain ⟨r, s₃, -, h⟩ := Scan.exists_of_bind_ok h
        cases (Prod.mk.inj h).1
    · intro h
      obtain ⟨closed, h⟩ := h
      have htoken : Scan.token Field.index.delimiter s = (.ok ⟨endMarker, closed⟩, s') :=
        Scan.token_eq_ok_iff.2 h
      unfold scan?
      rw [Scan.bind_ok htoken]
      rfl
  have hmem : opener ∉ endMarker := by decide
  rw [htoken, Bool.exists_bool, or_comm, ByteStream.token_eq_closed_iff,
    ByteStream.token_eq_open_iff]
  simp only [hmem, not_false_eq_true, true_and]

/-- No record begins as the end marker does. -/
theorem Spelled.head?_ne {text : Bytes} {r : Record UInt32} (h : Spelled text r) :
    ∃ b bytes, text = b :: bytes ∧ b ≠ closer := by
  obtain @⟨_, body, index, _, @⟨token, _, hindex⟩, -⟩ := h
  have hmem : closer ∉ token := hindex.not_mem (by decide) (by decide)
  cases token with
  | nil => exact ⟨opener, body, rfl, by decide⟩
  | cons b bytes =>
    exact ⟨b, bytes ++ [opener] ++ body, rfl, fun hb => hmem (hb ▸ List.mem_cons_self ..)⟩

/-- A text has one record at its front at most. -/
theorem Spelled.eq_of_append_eq {t t' rest rest' : Bytes} {r r' : Record UInt32}
    (h : Spelled t r) (h' : Spelled t' r') (heq : t ++ rest = t' ++ rest') : t = t' ∧ r = r' := by
  -- one scan cannot end at two places
  have hscan := scan?_eq_some_iff.2 ⟨t, h, ByteStream.past_mk t rest .complete 0⟩
  have hscan' := scan?_eq_some_iff.2 ⟨t', h', ByteStream.past_mk t' rest' .complete 0⟩
  rw [heq, hscan'] at hscan
  obtain ⟨hr, hs⟩ := Prod.mk.inj hscan
  have hrest : rest' = rest := congrArg ByteStream.rest hs
  subst hrest
  exact ⟨List.append_cancel_right heq, (Option.some.inj (Except.ok.inj hr)).symm⟩

/-- What begins neither with a record nor with the end marker is malformed. -/
theorem exists_malformed_of_not_prefix {rest : Bytes} (hmarker : ¬endMarker <+: rest)
    (hrecord : ∀ text r, Spelled text r → ¬text <+: rest) (offset : Nat) :
    ∃ field token s', scan? ⟨rest, .complete, offset⟩ = (.error (.malformed field token), s') := by
  obtain ⟨-, htextual⟩ := Scan.compositional_textual.scan? ⟨rest, .complete, offset⟩ rfl
  cases hscan : scan? ⟨rest, .complete, offset⟩ with
  | mk answer s' =>
    rw [hscan] at htextual
    match answer with
    | .error e =>
      obtain ⟨field, token, rfl⟩ := htextual e rfl
      exact ⟨field, token, s', rfl⟩
    | .ok none =>
      refine absurd ?_ hmarker
      rcases scan?_eq_none_iff.1 hscan with hpast | ⟨-, hpast, -⟩
      · exact (List.prefix_append ..).trans ⟨s'.rest, hpast.rest.symm⟩
      · exact ⟨s'.rest, hpast.rest.symm⟩
    | .ok (some r) =>
      obtain ⟨text, hspelled, hpast⟩ := scan?_eq_some_iff.1 hscan
      exact absurd ⟨s'.rest, hpast.rest.symm⟩ (hrecord text r hspelled)

/-- A record that is cut short is malformed. -/
theorem scan?_take_of_spelled {text : Bytes} {r : Record UInt32} (h : Spelled text r) {n : Nat}
    (hn : n < text.length) (offset : Nat) :
    ∃ field token s',
      scan? ⟨text.take n, .complete, offset⟩ = (.error (.malformed field token), s') := by
  refine exists_malformed_of_not_prefix ?_ ?_ offset
  · intro hmarker
    obtain ⟨rest, hrest⟩ := hmarker.trans (List.take_prefix n text)
    obtain ⟨b, bytes, htext, hb⟩ := h.head?_ne
    rw [htext] at hrest
    exact hb (List.head_eq_of_cons_eq hrest).symm
  · intro t' r' h' hprefix
    obtain ⟨rest, hrest⟩ := hprefix.trans (List.take_prefix n text)
    -- a record at the front of the part is the whole record, which is longer than the part
    have heq : t' ++ rest = text ++ [] := by rw [hrest, List.append_nil]
    obtain ⟨rfl, -⟩ := h'.eq_of_append_eq h heq
    have hlength := hprefix.length_le
    rw [List.length_take] at hlength
    omega

/-- An end marker that is cut short is malformed. -/
theorem scan?_take_endMarker {n : Nat} (hn : n < endMarker.length) (offset : Nat) :
    ∃ field token s',
      scan? ⟨endMarker.take n, .complete, offset⟩ = (.error (.malformed field token), s') := by
  refine exists_malformed_of_not_prefix ?_ ?_ offset
  · intro hmarker
    have hlength := hmarker.length_le
    rw [List.length_take] at hlength
    omega
  · intro text r h hprefix
    obtain ⟨rest, hrest⟩ := hprefix.trans (List.take_prefix n endMarker)
    obtain ⟨b, bytes, htext, hb⟩ := h.head?_ne
    rw [htext] at hrest
    exact hb (List.head_eq_of_cons_eq hrest)

end Record

/-- A cut through texts that stand behind each other leaves some of them whole and goes through the
next one: `k` is the number of texts that end at the cut or before it. -/
theorem Bytes.exists_take_flatten {texts : List Bytes} {n : Nat} (hn : n < texts.flatten.length) :
    ∃ k text m, texts[k]? = some text ∧ m < text.length ∧
      texts.flatten.take n = (texts.take k).flatten ++ text.take m ∧
      ∀ i ≤ texts.length, (texts.take i).flatten.length ≤ n ↔ i ≤ k := by
  induction texts generalizing n with
  | nil => exact absurd hn (Nat.not_lt_zero n)
  | cons first texts ih =>
    rw [List.flatten_cons, List.length_append] at hn
    by_cases hfirst : n < first.length
    · refine ⟨0, first, n, rfl, hfirst, ?_, ?_⟩
      · rw [List.flatten_cons, List.take_append_of_le_length (Nat.le_of_lt hfirst)]
        rfl
      · intro i _
        cases i with
        | zero => simp
        | succ i =>
          rw [List.take_succ_cons, List.flatten_cons, List.length_append]
          omega
    · obtain ⟨k, text, m, hk, hm, htake, hwhole⟩ := ih (n := n - first.length) (by omega)
      refine ⟨k + 1, text, m, hk, hm, ?_, ?_⟩
      · rw [List.flatten_cons, List.take_append, List.take_of_length_le (Nat.not_lt.1 hfirst),
          htake, List.take_succ_cons, List.flatten_cons, List.append_assoc]
      · intro i hi
        cases i with
        | zero => simp
        | succ i =>
          have hnext := hwhole i (Nat.le_of_succ_le_succ hi)
          rw [List.take_succ_cons, List.flatten_cons, List.length_append]
          omega

namespace Node

variable {lookup : Lookup}

/-- A record that cannot be read is no node, and the stream is left at the same place. -/
theorem scan?_of_record_error {s s' : ByteStream} {e : RecordError}
    (h : Record.scan? s = (.error e, s')) : scan? lookup s = (.error e, s') :=
  Scan.bind_error h

/-- Well-formed nodes and the end marker, cut short: the nodes that are whole are read, and what
is left of the stream is malformed. -/
theorem scanMany_take {nodes : List Node} (h : ∀ node ∈ nodes, node.WellFormed lookup) {n : Nat}
    (hn : n < (nodes.flatMap encode ++ endMarker).length) :
    ∃ k ≤ nodes.length,
      (∀ i ≤ nodes.length, ((nodes.take i).flatMap encode).length ≤ n ↔ i ≤ k) ∧
      ∃ field token s,
        scanMany lookup (k + 1) { rest := (nodes.flatMap encode ++ endMarker).take n } =
          (((nodes.take k).map fun node => .ok (some node.reread)) ++
            [.error (.malformed field token)], s) := by
  have hflatten : (nodes.map encode ++ [endMarker]).flatten = nodes.flatMap encode ++ endMarker := by
    rw [List.flatten_append, ← List.flatMap_def, List.flatten_singleton]
  rw [← hflatten] at hn
  obtain ⟨k, text, m, hk, hm, htake, hwhole⟩ := Bytes.exists_take_flatten hn
  have hlength : k < (nodes.map encode ++ [endMarker]).length := (List.getElem?_eq_some_iff.1 hk).1
  rw [List.length_append, List.length_map, List.length_singleton] at hlength
  have hle : k ≤ nodes.length := Nat.le_of_lt_succ hlength
  have hfront : ∀ i ≤ nodes.length,
      ((nodes.map encode ++ [endMarker]).take i).flatten = (nodes.take i).flatMap encode := by
    intro i hi
    rw [List.take_append_of_le_length (by rwa [List.length_map]), ← List.map_take, List.flatMap_def]
  refine ⟨k, hle, ?_, ?_⟩
  · intro i hi
    rw [← hfront i hi]
    refine hwhole i ?_
    rw [List.length_append, List.length_map]
    omega
  · have hwell : ∀ node ∈ nodes.take k, node.WellFormed lookup :=
      fun node hnode => h node (List.mem_of_mem_take hnode)
    have hfirst := scanMany_flatMap_append hwell (text.take m) .complete 0
    rw [List.length_take, Nat.min_eq_left hle] at hfirst
    -- the text that is cut is that of the next node, or the end marker
    have hlast : ∃ field token s, Record.scan? ⟨text.take m, .complete,
        0 + ((nodes.take k).flatMap encode).length⟩ = (.error (.malformed field token), s) := by
      rcases List.mem_append.1 (List.mem_of_getElem? hk) with htext | htext
      · obtain ⟨node, hnode, rfl⟩ := List.mem_map.1 htext
        exact Record.scan?_take_of_spelled
          (Record.spelled_encode (h node hnode).countable.unbound) hm _
      · obtain rfl := List.mem_singleton.1 htext
        exact Record.scan?_take_endMarker hm _
    obtain ⟨field, token, s, hlast⟩ := hlast
    refine ⟨field, token, s, ?_⟩
    rw [← hflatten, htake, hfront k hle, scanMany_add, hfirst,
      scanMany_succ (scan?_of_record_error hlast)]
    rfl

end Node

/-- A sink with limited room takes the beginning of what is written, up to its room, and tells that
something was lost. -/
theorem Sink.write_limited (room : Nat) (pieces : List Bytes) :
    (Sink.mk (some room)).write pieces =
      ⟨pieces.flatten.take room, decide (pieces.flatten.length ≤ room)⟩ := by
  induction pieces generalizing room with
  | nil => simp [write]
  | cons piece pieces ih =>
    unfold write
    rw [List.flatten_cons, List.length_append]
    by_cases hpiece : piece.length ≤ room
    · have hroom : pieces.flatten.length ≤ room - piece.length ↔
          piece.length + pieces.flatten.length ≤ room := by omega
      rw [if_pos hpiece, ih, List.take_append, List.take_of_length_le hpiece]
      simp only [hroom]
    · have hfull : ¬piece.length + pieces.flatten.length ≤ room := by omega
      rw [if_neg hpiece, List.take_append_of_le_length (Nat.le_of_not_le hpiece),
        decide_eq_false hfull]

end TraceGraph
