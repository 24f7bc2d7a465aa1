import TraceGraph.Proofs.TraceFiles.Acceptance

/-!
# Saves that are cut short

What is left of a save that could not be written to its end is some beginning of the text of
its nodes. It is never taken for a whole save.

The text of a graph is a sequence of records and the end marker, and what is left of a
record is never read as another one. So, wherever the text is cut, the records before the
cut are read and the one that is cut is malformed:

> `Graph.exists_error_of_extend_take`: reading a section that is cut short fails.

The induction is on the nodes. Either the cut lies within the first record, and then that
record is reported, or the record is whole and the cut lies in the rest. The lookup with
which the part is read may be another one than that of the save, so a whole record may be
refused as well, or be read as a node with an index that does not fit; this is also a
failure, and the text alone has to guard against the rest.

The main result `load_truncated` puts the pieces together: what a sink with limited room
keeps, what is read of a part of the text, and that no part of a node file is loaded,
through whatever lookup and beside whatever metadata.
-/

namespace TraceGraph

/-- However the nodes that are whole are bound, reading a section that is cut short fails. -/
theorem Graph.exists_error_of_extend_take {nodes : List Node}
    (h : ∀ node ∈ nodes, node.toRecord.Countable) {n : Nat}
    (hn : n < (nodes.flatMap Node.encode ++ endMarker).length) (lookup : Lookup) (g : Graph)
    (offset : Nat) :
    ∃ e g', extend lookup g ⟨(nodes.flatMap Node.encode ++ endMarker).take n, .complete, offset⟩ =
      (.error e, g') := by
  induction nodes generalizing n g offset with
  | nil =>
    obtain ⟨field, token, s', hscan⟩ := Record.scan?_take_endMarker hn offset
    exact ⟨_, g, extend_of_stops (.refused (Node.scan?_of_record_error hscan))⟩
  | cons node nodes ih =>
    have hspelled : Record.Spelled node.encode node.toRecord.unbound :=
      Record.spelled_encode (h node (List.mem_cons_self ..)).unbound
    have hrecord : ∀ rest, Record.scan? ⟨node.encode ++ rest, .complete, offset⟩ = _ :=
      fun rest => Record.scan?_eq_some_iff.2 ⟨_, hspelled, ByteStream.past_mk ..⟩
    rw [List.flatMap_cons, List.append_assoc, List.length_append] at hn
    rw [List.flatMap_cons, List.append_assoc]
    by_cases hwhole : n < node.encode.length
    · obtain ⟨field, token, s', hscan⟩ := Record.scan?_take_of_spelled hspelled hwhole offset
      rw [List.take_append_of_le_length (Nat.le_of_lt hwhole)]
      exact ⟨_, g, extend_of_stops (.refused (Node.scan?_of_record_error hscan))⟩
    · rw [List.take_append, List.take_of_length_le (Nat.not_lt.1 hwhole)]
      -- the first record is whole, but the lookup need not know its block
      cases hscan : Node.scan? lookup ⟨node.encode ++ (nodes.flatMap Node.encode ++ endMarker).take
          (n - node.encode.length), .complete, offset⟩ with
      | mk answer s' =>
        match answer with
        | .error e => exact ⟨_, g, extend_of_stops (.refused hscan)⟩
        | .ok none =>
          have hnone := Node.scan?_eq_none_iff.1 hscan
          rw [hrecord] at hnone
          cases (Prod.mk.inj hnone).1
        | .ok (some found) =>
          by_cases hindex : found.index = g.nextIndex
          · obtain ⟨r, hsome, -⟩ := Node.scan?_eq_some_iff_record.1 hscan
            rw [hrecord] at hsome
            obtain ⟨-, rfl⟩ := Prod.mk.inj hsome
            rw [extend_of_scan?_some hscan hindex]
            exact ih (fun m hm => h m (List.mem_cons_of_mem _ hm)) (by omega) _ _
          · exact ⟨_, g, extend_of_stops (.misplaced hscan hindex)⟩

namespace TraceFiles

/-- A node file is its header, the texts of the nodes and the end marker. -/
theorem nodesContent_eq (nodes : List Node) :
    nodesContent ⟨nodes⟩ = tag ++ opener :: (nodes.flatMap Node.encode ++ endMarker) := by
  unfold nodesContent
  rw [Record.encodeAll_unbound]

/-- A node file that is cut short holds no graph, not even if it ends within its header. -/
theorem decodeNodes_take_ne_ok {nodes : List Node} (h : ∀ node ∈ nodes, node.toRecord.Countable)
    {n : Nat} (hn : n < (nodesContent ⟨nodes⟩).length) (lookup : Lookup) (g : Graph) :
    decodeNodes lookup ((nodesContent ⟨nodes⟩).take n) ≠ .ok g := by
  intro hgraph
  obtain ⟨rest, hrest⟩ := exists_append_of_decodeNodes hgraph
  rw [nodesContent_eq] at hn hrest hgraph
  -- with fewer than two bytes there is no header, so at least those of the header are there
  match n, hn, hrest, hgraph with
  | n + 2, hn, hrest, hgraph =>
    obtain ⟨e, g', hextend⟩ := Graph.exists_error_of_extend_take h
      (Nat.lt_of_succ_lt_succ (Nat.lt_of_succ_lt_succ hn)) lookup .empty 2
    change decodeNodes lookup (tag ++ opener :: (_ : Bytes).take n) = _ at hgraph
    rw [decodeNodes_append, hextend] at hgraph
    cases hgraph

/-- What is left of a save that was cut short never passes as complete. A sink with limited room
takes the beginning of the text and tells that something was lost; of a part of the text the nodes
that are whole are read, and what is behind them is malformed; and no part of a node file is loaded,
through whatever lookup and beside whatever metadata. -/
theorem load_truncated {lookup : Lookup} {nodes : List Node}
    (h : ∀ node ∈ nodes, node.WellFormed lookup) :
    let records := nodes.map fun node => node.toRecord.unbound
    let text := Record.encodeAll records
    (∀ room, (Sink.mk (some room)).write (Record.allPieces records) =
      ⟨text.take (min room text.length), decide (text.length ≤ room)⟩) ∧
    (∀ n < text.length, ∃ k ≤ nodes.length,
      (∀ i ≤ nodes.length, ((nodes.take i).flatMap Node.encode).length ≤ n ↔ i ≤ k) ∧
      ∃ field token s, Node.scanMany lookup (k + 1) { rest := text.take n } =
        (((nodes.take k).map fun node => .ok (some node.reread)) ++
          [.error (.malformed field token)], s)) ∧
    (∀ node ∈ nodes, node.Same node.reread) ∧
    ∀ n < (nodesContent ⟨nodes⟩).length, ∀ (files : TraceFiles) (t : FileTree),
      t.at? files.nodes = some (.file ((nodesContent ⟨nodes⟩).take n)) →
      ∀ lookup', ∃ e, files.load lookup' t = .error e := by
  intro records text
  have htext : text = nodes.flatMap Node.encode ++ endMarker := Record.encodeAll_unbound nodes
  refine ⟨?_, ?_, fun node _ => node.same_reread, ?_⟩
  · intro room
    rw [Sink.write_limited, Record.flatten_allPieces, List.take_eq_take_min]
  · intro n hn
    rw [htext] at hn ⊢
    exact Node.scanMany_take h hn
  · intro n hn files t hcontent lookup'
    cases hload : files.load lookup' t with
    | error e => exact ⟨e, rfl⟩
    | ok g =>
      obtain ⟨content, hcontent', hgraph, -⟩ := load_eq_ok_iff_agrees.1 hload
      rw [hcontent] at hcontent'
      cases hcontent'
      exact absurd hgraph
        (decodeNodes_take_ne_ok (fun node hnode => (h node hnode).countable) hn lookup' g)

/-- A file of two nodes without the last byte of its end marker, loaded beside no metadata. -/
theorem load_truncated_lastByte :
    let files := TraceFiles.of ⟨""⟩ "t"
    let nodes := [Node.external 0 {} 30464, ((Node.external 1 {} 30720).pushCall [(0, [125])]).2]
    let t := FileTree.empty.set ["t.nodes"]
      (.file ((nodesContent ⟨nodes⟩).take ((nodesContent ⟨nodes⟩).length - 1)))
    (∀ node ∈ nodes, node.WellFormed (.failing "")) ∧ ∃ e, files.load (.failing "") t = .error e := by
  intro files nodes t
  have hwell : ∀ node ∈ nodes, node.WellFormed (.failing "") := by
    intro node hnode
    rcases List.mem_cons.1 hnode with hnode | hnode
    · rw [hnode]
      exact .of_external rfl (by decide)
    · rw [List.mem_singleton.1 hnode]
      exact .of_external rfl (by decide)
  obtain ⟨-, -, -, hload⟩ := load_truncated hwell
  have hcut : (nodesContent ⟨nodes⟩).length - 1 < (nodesContent ⟨nodes⟩).length := by decide
  exact ⟨hwell, hload _ hcut files t (by decide) _⟩

end TraceFiles

end TraceGraph
