import TraceGraph.Proofs.Graph.Section

/-!
# How reading a section ends

A section is read node by node as long as each carries the next free index, and then comes
what ends it. There are three such ends (`Graph.Stops`): the end marker, a record that
cannot be read, and a node that is not the next one. The module describes all that reading a
section can lead to:

> `Graph.extend_eq_iff`: the graph has grown by the nodes that are read from the texts in
> front of one
> of the ends, and that end is what is reported.

It is an equivalence, so it serves in both directions: to run the reader on a text that is
known, and to take apart a text of which only the result is known. It is put together from
three lemmas. Where the section ends the graph stays as it is (`extend_of_stops`); texts of
nodes that carry the next free indices are read through (`extend_of_repeated`); and every
stream consists of such texts and an end (`exists_stops`), since each node makes the stream
shorter.

Which texts are read as a node is not the concern of this module. `Node.Reads` states it as
a grammar that is given by the scan itself.
-/

namespace TraceGraph

open Grammar

namespace Node

variable {lookup : Lookup} {s s' : ByteStream} {node : Node}

/-- The texts that are read as a node: a scan takes such a text and leaves what is behind it. -/
def Reads (lookup : Lookup) : Grammar Node := fun text node =>
  ∀ rest ending offset, scan? lookup ⟨text ++ rest, ending, offset⟩ =
    (.ok (some node), ⟨rest, ending, offset + text.length⟩)

/-- A scan depends on nothing but the text that it takes. -/
theorem scan?_eq_some_iff_reads :
    scan? lookup s = (.ok (some node), s') ↔ ∃ text, Reads lookup text node ∧ s.Past text s' := by
  refine ⟨?_, ?_⟩
  · intro h
    obtain ⟨r, hscan, hbinds, hruntime⟩ := scan?_eq_some_iff_record.1 h
    obtain ⟨text, hspelled, hpast⟩ := Record.scan?_eq_some_iff.1 hscan
    refine ⟨text, ?_, hpast⟩
    intro rest ending offset
    exact scan?_eq_some_iff_record.2
      ⟨r, Record.scan?_eq_some_iff.2 ⟨text, hspelled, ByteStream.past_mk ..⟩, hbinds, hruntime⟩
  · intro h
    obtain ⟨text, hreads, hpast⟩ := h
    obtain ⟨hs, hs'⟩ := hpast.eq_mk
    rw [hs, hs']
    exact hreads s'.rest s.ending s.offset

/-- A written node is read back from its text. -/
theorem reads_encode (h : node.WellFormed lookup) : Reads lookup node.encode node.reread :=
  scan?_encode_append h

/-- The texts of written nodes, behind each other, are read as these nodes. -/
theorem repeated_encode {nodes : List Node} (h : ∀ node ∈ nodes, node.WellFormed lookup) :
    Repeated (Reads lookup) (nodes.flatMap encode) (nodes.map reread) := by
  induction nodes with
  | nil => exact .nil
  | cons node nodes ih =>
    exact .cons (reads_encode (h node (List.mem_cons_self ..)))
      (ih fun n hn => h n (List.mem_cons_of_mem node hn))

end Node

namespace Graph

variable {lookup : Lookup} {g g' : Graph} {s s' : ByteStream} {node : Node} {nodes : List Node}

/-- The nodes carry the next free indices of the graph, one after the other. -/
def Continues (g : Graph) (nodes : List Node) : Prop :=
  ∀ i (h : i < nodes.length), nodes[i].index = .ofNat (g.size + i)

theorem continues_nil (g : Graph) : g.Continues [] := nofun

/-- The first node carries the next index, and the others those behind it. -/
theorem continues_cons_iff :
    g.Continues (node :: nodes) ↔
      node.index = g.nextIndex ∧ Continues ⟨g.nodes ++ [node]⟩ nodes := by
  have hsize : ∀ i, size ⟨g.nodes ++ [node]⟩ + i = g.size + (i + 1) := by
    intro i
    unfold size
    rw [List.length_append, List.length_singleton]
    omega
  refine ⟨?_, ?_⟩
  · intro h
    refine ⟨h 0 (Nat.zero_lt_succ _), ?_⟩
    intro i hi
    rw [hsize]
    exact h (i + 1) (Nat.succ_lt_succ hi)
  · intro h i hi
    cases i with
    | zero => exact h.1
    | succ i =>
      rw [← hsize]
      exact h.2 i (Nat.lt_of_succ_lt_succ hi)

/-- Nodes that continue an empty graph are numbered. -/
theorem continues_empty_iff : empty.Continues nodes ↔ Numbered ⟨nodes⟩ := by
  unfold Continues Numbered
  simp only [show empty.size = 0 from rfl, Nat.zero_add]

/-- What ends a section that is read into a graph, and what is then reported. -/
inductive Stops (lookup : Lookup) (g : Graph) (s : ByteStream) : Except SectionError Unit → Prop
  | done {s' : ByteStream} (h : Node.scan? lookup s = (.ok none, s')) : Stops lookup g s (.ok ())
  | refused {e : RecordError} {s' : ByteStream} (h : Node.scan? lookup s = (.error e, s')) :
      Stops lookup g s (.error (.record s.offset e))
  | misplaced {node : Node} {s' : ByteStream} (h : Node.scan? lookup s = (.ok (some node), s'))
      (hindex : node.index ≠ g.nextIndex) :
      Stops lookup g s (.error (.order (.outOfOrder node.index g.nextIndex)))

/-- Where a section ends the graph stays as it is. -/
theorem extend_of_stops {result : Except SectionError Unit} (h : Stops lookup g s result) :
    extend lookup g s = (result, g) := by
  cases h with
  | done h => exact extend_of_scan?_none h
  | refused h => rw [extend_eq, h]
  | misplaced h hindex =>
    rw [extend_eq, h]
    dsimp only
    unfold insert
    rw [if_neg hindex]

/-- Nodes that carry the next free indices are added to the graph, and reading goes on. -/
theorem extend_of_repeated {texts : Bytes} (h : Repeated (Node.Reads lookup) texts nodes)
    (hindex : g.Continues nodes) (hpast : s.Past texts s') :
    extend lookup g s = extend lookup ⟨g.nodes ++ nodes⟩ s' := by
  induction h generalizing g s with
  | nil =>
    rw [ByteStream.past_nil_iff.1 hpast, List.append_nil]
  | cons head tail ih =>
    obtain ⟨s₁, hpast₁, hpast₂⟩ := hpast.exists_of_append
    obtain ⟨hfirst, hrest⟩ := continues_cons_iff.1 hindex
    rw [extend_of_scan?_some (Node.scan?_eq_some_iff_reads.2 ⟨_, head, hpast₁⟩) hfirst,
      ih hrest hpast₂, List.append_assoc]
    rfl

/-- Reading always comes to an end of the section, behind nodes that carry the next free indices. -/
theorem exists_stops (lookup : Lookup) (g : Graph) (s : ByteStream) :
    ∃ nodes texts s' result, Repeated (Node.Reads lookup) texts nodes ∧ g.Continues nodes ∧
      s.Past texts s' ∧ Stops lookup ⟨g.nodes ++ nodes⟩ s' result := by
  -- each node makes the stream shorter
  induction hlength : s.rest.length using Nat.strongRecOn generalizing g s with
  | ind length ih =>
    have hstop : ∀ {result}, Stops lookup g s result →
        ∃ nodes texts s' result, Repeated (Node.Reads lookup) texts nodes ∧ g.Continues nodes ∧
          s.Past texts s' ∧ Stops lookup ⟨g.nodes ++ nodes⟩ s' result := by
      intro result h
      refine ⟨[], [], s, result, .nil, g.continues_nil, ByteStream.past_nil_iff.2 rfl, ?_⟩
      rw [List.append_nil]
      exact h
    cases hscan : Node.scan? lookup s with
    | mk answer s₁ =>
      match answer with
      | .error e => exact hstop (.refused hscan)
      | .ok none => exact hstop (.done hscan)
      | .ok (some node) =>
        by_cases hindex : node.index = g.nextIndex
        · have hshorter := Node.length_lt_of_scan? hscan
          obtain ⟨nodes, texts, s', result, hreads, hcontinues, hpast, hresult⟩ :=
            ih s₁.rest.length (hlength ▸ hshorter) ⟨g.nodes ++ [node]⟩ s₁ rfl
          obtain ⟨text, hnode, hpast₁⟩ := Node.scan?_eq_some_iff_reads.1 hscan
          refine ⟨node :: nodes, text ++ texts, s', result, .cons hnode hreads,
            continues_cons_iff.2 ⟨hindex, hcontinues⟩, hpast₁.trans hpast, ?_⟩
          rwa [List.append_assoc] at hresult
        · exact hstop (.misplaced hscan hindex)

/-- Reading a section adds the nodes in front of what ends it, and reports how it ended. -/
theorem extend_eq_iff {result : Except SectionError Unit} :
    extend lookup g s = (result, g') ↔
      ∃ nodes texts s', Repeated (Node.Reads lookup) texts nodes ∧ g.Continues nodes ∧
        s.Past texts s' ∧ g' = ⟨g.nodes ++ nodes⟩ ∧ Stops lookup g' s' result := by
  refine ⟨?_, ?_⟩
  · intro h
    obtain ⟨nodes, texts, s', result', hreads, hindex, hpast, hstops⟩ := exists_stops lookup g s
    rw [extend_of_repeated hreads hindex hpast, extend_of_stops hstops] at h
    obtain ⟨rfl, rfl⟩ := Prod.mk.inj h
    exact ⟨nodes, texts, s', hreads, hindex, hpast, rfl, hstops⟩
  · intro h
    obtain ⟨nodes, texts, s', hreads, hindex, hpast, rfl, hstops⟩ := h
    rw [extend_of_repeated hreads hindex hpast, extend_of_stops hstops]

/-- Well-formed nodes that carry the next free indices are all read back. -/
theorem extend_encode (hwell : ∀ node ∈ nodes, node.WellFormed lookup)
    (hindex : ∀ i (h : i < nodes.length), nodes[i].index = .ofNat (g.size + i)) (offset : Nat) :
    extend lookup g ⟨nodes.flatMap Node.encode ++ endMarker, .complete, offset⟩ =
      (.ok (), ⟨g.nodes ++ nodes.map Node.reread⟩) := by
  have hcontinues : g.Continues (nodes.map Node.reread) := by
    intro i hi
    rw [List.getElem_map, toRecord_reread]
    exact hindex i (List.length_map (f := Node.reread) ▸ hi)
  rw [extend_of_repeated (Node.repeated_encode hwell) hcontinues (ByteStream.past_mk ..),
    extend_of_stops (.done (Node.scan?_endMarker lookup _))]

end Graph

end TraceGraph
