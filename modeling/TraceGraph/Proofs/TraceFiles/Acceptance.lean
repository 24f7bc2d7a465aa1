import TraceGraph.Proofs.Record.Truncation
import TraceGraph.Proofs.TraceFiles.Load

/-!
# Which saves are loaded

A node file is the header, the texts of the nodes in the order of their indices, and the end
marker. The marker closes the file or stands before an opening brace; what is behind that
brace is not looked at. This is an exact description:

> `decodeNodes_eq_ok_iff`: a content is decoded as a graph exactly if it is put together so.

From left to right, the section that was read is taken apart into the texts of its nodes and
the place where it stopped (`Graph.extend_eq_iff`), and a section that is done stands before
an end marker (`scan?_eq_none_iff_endMarker`). From right to left, the same two equivalences
build the run. No text of a node is looked into: that a text is read as a node is
`Node.Reads`, and its grammar is the subject of another module.

With what the metadata may be, this describes all saves that are loaded. Of the others the
first thing that does not fit is reported (`load_of_stops`): a record that cannot be read
with the offset of its first byte, and a record that is not the next one with its index and
the expected one. The main result is `load_iff_consistent`.
-/

namespace TraceGraph

open Grammar

namespace TraceFiles

variable {files : TraceFiles} {lookup : Lookup} {t : FileTree} {g : Graph} {nodes : List Node}
  {content texts rest : Bytes}

/-- Behind the header, decoding is reading the section of an empty graph at offset 2. -/
theorem decodeNodes_append (lookup : Lookup) (rest : Bytes) :
    decodeNodes lookup (tag ++ opener :: rest) =
      match Graph.extend lookup .empty ⟨rest, .complete, 2⟩ with
      | (.ok (), g) => .ok g
      | (.error e, _) => .error (.records e) := by
  rw [decodeNodes_eq, ByteStream.token_append (by decide) rest .complete 0]
  rfl

/-- Nothing but the tag can stand before the first opening brace. -/
theorem exists_append_of_decodeNodes (h : decodeNodes lookup content = .ok g) :
    ∃ rest, content = tag ++ opener :: rest := by
  rw [decodeNodes_eq] at h
  split at h
  next token s htoken =>
    split at h
    next heq =>
      subst heq
      obtain ⟨-, hpast⟩ := ByteStream.token_eq_closed_iff.1 htoken
      exact ⟨s.rest, hpast.rest.trans (List.append_assoc ..)⟩
    next => cases h
  next => cases h

/-- What stands where a section is done. -/
theorem scan?_eq_none_iff_endMarker (lookup : Lookup) (rest : Bytes) (offset : Nat) :
    (∃ s', Node.scan? lookup ⟨rest, .complete, offset⟩ = (.ok none, s')) ↔
      ∃ tail, rest = endMarker ++ tail ∧ (tail = [] ∨ ∃ more, tail = opener :: more) := by
  simp only [Node.scan?_eq_none_iff, Record.scan?_eq_none_iff]
  refine ⟨?_, ?_⟩
  · intro h
    obtain ⟨s', hpast | ⟨-, hpast, hrest⟩⟩ := h
    · exact ⟨opener :: s'.rest, hpast.rest.trans (List.append_assoc ..), .inr ⟨s'.rest, rfl⟩⟩
    · exact ⟨s'.rest, hpast.rest, .inl hrest⟩
  · intro h
    obtain ⟨tail, rfl, rfl | ⟨more, rfl⟩⟩ := h
    · exact ⟨_, .inr ⟨trivial, ByteStream.past_mk endMarker [] .complete offset, rfl⟩⟩
    · exact ⟨_, .inl (ByteStream.past_mk (endMarker ++ [opener]) more .complete offset)⟩

/-- The contents that hold a graph. The texts of the nodes are those that are read as these
nodes, which need not be the texts that would be written for them. -/
theorem decodeNodes_eq_ok_iff :
    decodeNodes lookup content = .ok g ↔
      ∃ texts tail, content = tag ++ opener :: (texts ++ endMarker ++ tail) ∧
        (tail = [] ∨ ∃ more, tail = opener :: more) ∧
        Repeated (Node.Reads lookup) texts g.nodes ∧ g.Numbered := by
  refine ⟨?_, ?_⟩
  · intro h
    obtain ⟨rest, rfl⟩ := exists_append_of_decodeNodes h
    rw [decodeNodes_append] at h
    split at h
    next g' hextend =>
      cases h
      obtain ⟨nodes, texts, s', hreads, hindex, hpast, rfl, hstops⟩ := Graph.extend_eq_iff.1 hextend
      obtain ⟨-, hs'⟩ := hpast.eq_mk
      cases hstops with
      | done hscan =>
        rw [hs'] at hscan
        obtain ⟨tail, hrest, htail⟩ := (scan?_eq_none_iff_endMarker lookup _ _).1 ⟨_, hscan⟩
        refine ⟨texts, tail, ?_, htail, hreads, Graph.continues_empty_iff.1 hindex⟩
        rw [List.append_assoc, ← hrest, ← hpast.rest]
    next => cases h
  · intro h
    obtain ⟨texts, tail, rfl, htail, hreads, hnumbered⟩ := h
    obtain ⟨s', hscan⟩ := (scan?_eq_none_iff_endMarker lookup _ (2 + texts.length)).2
      ⟨tail, rfl, htail⟩
    have hextend := Graph.extend_eq_iff.2 ⟨g.nodes, texts, _, hreads,
      Graph.continues_empty_iff.2 hnumbered, ByteStream.past_mk .., rfl, .done hscan⟩
    rw [List.append_assoc, decodeNodes_append, hextend]
    rfl

/-- Whatever ends the records of a file before its end marker is what a load reports. -/
theorem load_of_stops (hcontent : t.at? files.nodes = some (.file (tag ++ opener :: (texts ++ rest))))
    (hreads : Repeated (Node.Reads lookup) texts nodes) (hnumbered : Graph.Numbered ⟨nodes⟩)
    {e : SectionError}
    (hstops : Graph.Stops lookup ⟨nodes⟩ ⟨rest, .complete, 2 + texts.length⟩ (.error e)) :
    files.load lookup t = .error (.records e) := by
  have hextend := Graph.extend_eq_iff.2 ⟨nodes, texts, _, hreads,
    Graph.continues_empty_iff.2 hnumbered, ByteStream.past_mk .., rfl, hstops⟩
  rw [load_eq, readNodes_eq_ok_iff.2 hcontent]
  dsimp only [bind, Except.bind]
  rw [decodeNodes_append, hextend]

/-- A save is loaded exactly if it is consistent: the node file holds records that are read as the
nodes of the graph in the order of their indices, and no metadata stand against them. The first
record that cannot be read is reported with the offset of its first byte, and a record that is not
the next one with its index. The tree is only read. -/
theorem load_iff_consistent (files : TraceFiles) (lookup : Lookup) (t : FileTree) :
    (∀ g, files.load lookup t = .ok g ↔
      ∃ texts tail,
        t.at? files.nodes = some (.file (tag ++ opener :: (texts ++ endMarker ++ tail))) ∧
        (tail = [] ∨ ∃ more, tail = opener :: more) ∧
        Repeated (Node.Reads lookup) texts g.nodes ∧ g.Numbered ∧
        Agrees g (t.at? files.metadata)) ∧
    (∀ texts nodes rest,
      t.at? files.nodes = some (.file (tag ++ opener :: (texts ++ rest))) →
      Repeated (Node.Reads lookup) texts nodes → Graph.Numbered ⟨nodes⟩ →
      let offset := 2 + texts.length
      (∀ e s, Node.scan? lookup ⟨rest, .complete, offset⟩ = (.error e, s) →
        files.load lookup t = .error (.records (.record offset e))) ∧
      (∀ node s, Node.scan? lookup ⟨rest, .complete, offset⟩ = (.ok (some node), s) →
        node.index ≠ .ofNat nodes.length →
        files.load lookup t =
          .error (.records (.order (.outOfOrder node.index (.ofNat nodes.length)))))) ∧
    (∀ g, files.load lookup t = .ok g → files.loadOrEmpty lookup t = g) ∧
    (∀ e, files.load lookup t = .error e → files.loadOrEmpty lookup t = .empty) := by
  refine ⟨?_, ?_, ?_, ?_⟩
  · intro g
    rw [load_eq_ok_iff_agrees]
    refine ⟨?_, ?_⟩
    · intro h
      obtain ⟨content, hcontent, hgraph, hagrees⟩ := h
      obtain ⟨texts, tail, rfl, htail, hreads, hnumbered⟩ := decodeNodes_eq_ok_iff.1 hgraph
      exact ⟨texts, tail, hcontent, htail, hreads, hnumbered, hagrees⟩
    · intro h
      obtain ⟨texts, tail, hcontent, htail, hreads, hnumbered, hagrees⟩ := h
      have hgraph := decodeNodes_eq_ok_iff.2 ⟨texts, tail, rfl, htail, hreads, hnumbered⟩
      exact ⟨_, hcontent, hgraph, hagrees⟩
  · intro texts nodes rest hcontent hreads hnumbered offset
    refine ⟨?_, ?_⟩
    · intro e s hscan
      exact load_of_stops hcontent hreads hnumbered (.refused hscan)
    · intro node s hscan hindex
      exact load_of_stops hcontent hreads hnumbered (.misplaced hscan hindex)
  · intro g h
    unfold loadOrEmpty
    rw [h]
  · intro e h
    unfold loadOrEmpty
    rw [h]

/-- One node is loaded from a file that goes on behind an opening brace. -/
theorem load_iff_consistent_more :
    let files := TraceFiles.of ⟨""⟩ "t"
    let node := Node.external 0 ⟨-1, 2, 0⟩ 30464
    let t := FileTree.empty.set ["t.nodes"]
      (.file (tag ++ opener :: (node.encode ++ endMarker ++ [opener, 0, 255])))
    files.load (.failing "") t = .ok ⟨[node.reread]⟩ := by
  intro files node t
  have hwell : node.WellFormed (.failing "") := .of_external rfl (by decide)
  have hreads : Repeated (Node.Reads (.failing "")) (node.encode ++ []) [node.reread] :=
    .cons (Node.reads_encode hwell) .nil
  have hnumbered : Graph.Numbered ⟨[node.reread]⟩ := by
    intro i hi
    obtain rfl := Nat.lt_one_iff.1 hi
    rfl
  have hmissing : t.at? files.metadata = none := by decide
  rw [List.append_nil] at hreads
  refine ((load_iff_consistent files (.failing "") t).1 _).2 ⟨node.encode, _, by decide,
    .inr ⟨[0, 255], rfl⟩, hreads, hnumbered, ?_⟩
  rw [hmissing]
  exact .missing

end TraceFiles

end TraceGraph
