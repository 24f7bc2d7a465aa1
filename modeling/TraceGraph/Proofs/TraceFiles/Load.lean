import TraceGraph.Proofs.FileTree.Frame
import TraceGraph.Proofs.Graph.Outcome
import TraceGraph.Proofs.Metadata
import TraceGraph.TraceFiles

/-!
# What a load accepts

A load reads the node file, decodes the records in it and compares the counts in the
metadata with the graph that it has got. This module gives each of the stages its exact
condition and puts them together:

> `load_eq_ok_iff_agrees`: a load succeeds exactly if the node file holds the text of a
> graph, and
> what is at the place of the metadata agrees with that graph.

`Agrees` is stated on the entry and not on the tree: nothing is there, or a file of the
current version with the counts of the graph. Anything else at that place, a directory as
well as a text that is no metadata, makes the load fail (`exists_of_readMetadata`). The
theorem has two consequences that the modules on saves live by. A load sees the tree through
two paths only (`load_of_at?_eq`), and taking the metadata away never makes it fail
(`load_of_missing`).

The last section is about the two contents that a save writes. Both are accepted
(`decodeNodes_nodesContent`, `agrees_metadataContent`), so a written graph is loaded, with
its metadata or without them (`load_written`).
-/

namespace TraceGraph.TraceFiles

variable {files : TraceFiles} {lookup : Lookup} {t u : FileTree} {g : Graph}

/-- What is at the place of the metadata does not stand against a graph: it is nothing, or a file of
the current version with the counts of the graph. -/
inductive Agrees (g : Graph) : Option Entry → Prop where
  | missing : Agrees g none
  | counted {content : Bytes} {text : String} {m : Metadata}
      (htext : Utf8.decode? content = some text) (hparse : Metadata.parse? text = some m)
      (hversion : m.version = Metadata.currentVersion)
      (hnodes : m.nodeCount.toNat = g.size) (hexternal : m.externalCount.toNat = g.externalCount) :
      Agrees g (some (.file content))

/-- Both counts have to be those of the graph. -/
theorem checkCounts_eq_ok_iff {m : Metadata} :
    checkCounts m g = .ok () ↔
      m.nodeCount.toNat = g.size ∧ m.externalCount.toNat = g.externalCount := by
  unfold checkCounts
  by_cases hnodes : m.nodeCount.toNat = g.size
  · rw [if_neg (not_not_intro hnodes)]
    by_cases hexternal : m.externalCount.toNat = g.externalCount
    · rw [if_neg (not_not_intro hexternal)]
      exact ⟨fun _ => ⟨hnodes, hexternal⟩, fun _ => rfl⟩
    · rw [if_pos hexternal]
      exact ⟨nofun, fun h => absurd h.2 hexternal⟩
  · rw [if_pos hnodes]
    exact ⟨nofun, fun h => absurd h.1 hnodes⟩

/-- The node file is read if it is there as a file. -/
theorem readNodes_eq_ok_iff {content : Bytes} :
    files.readNodes t = .ok content ↔ t.at? files.nodes = some (.file content) := by
  rw [FileTree.at?_eq_some_iff_get]
  unfold readNodes
  cases t.get files.nodes with
  | error e => exact ⟨nofun, nofun⟩
  | ok entry =>
    cases entry with
    | directory => exact ⟨nofun, nofun⟩
    | file found =>
      refine ⟨?_, ?_⟩
      · intro h
        cases h
        rfl
      · intro h
        cases h
        rfl

/-- Metadata that are not there are no error. -/
theorem readMetadata_of_missing (h : t.at? files.metadata = none) :
    files.readMetadata t = .ok none := by
  unfold readMetadata
  rw [FileTree.contains_eq_isSome, h]
  rfl

/-- Metadata of the current version are read as what they say. -/
theorem readMetadata_of_file {content : Bytes} {text : String} {m : Metadata}
    (h : t.at? files.metadata = some (.file content)) (htext : Utf8.decode? content = some text)
    (hparse : Metadata.parse? text = some m) (hversion : m.version = Metadata.currentVersion) :
    files.readMetadata t = .ok (some m) := by
  unfold readMetadata
  rw [FileTree.contains_eq_isSome, h, FileTree.read_of_at? h]
  dsimp only [Option.isSome]
  rw [if_pos rfl, htext]
  dsimp only
  rw [hparse]
  exact if_pos hversion

/-- If the metadata are read without an error, they are missing or a file of the current
version. Everything else that can be at their place is reported. -/
theorem exists_of_readMetadata {found : Option Metadata} (h : files.readMetadata t = .ok found) :
    (t.at? files.metadata = none ∧ found = none) ∨
    ∃ content text m, t.at? files.metadata = some (.file content) ∧
      Utf8.decode? content = some text ∧ Metadata.parse? text = some m ∧
      m.version = Metadata.currentVersion ∧ found = some m := by
  cases hentry : t.at? files.metadata with
  | none =>
    rw [readMetadata_of_missing hentry] at h
    cases h
    exact .inl ⟨rfl, rfl⟩
  | some entry =>
    -- every check that can fail is one that the metadata have passed
    unfold readMetadata at h
    rw [FileTree.contains_eq_isSome, hentry] at h
    dsimp only [Option.isSome] at h
    rw [if_pos rfl] at h
    cases entry with
    | directory =>
      unfold FileTree.read at h
      rw [FileTree.at?_eq_some_iff_get.1 hentry] at h
      cases h
    | file content =>
      rw [FileTree.read_of_at? hentry] at h
      dsimp only at h
      split at h
      next => cases h
      next text htext =>
        split at h
        next => cases h
        next m hparse =>
          split at h
          next hversion =>
            cases h
            exact .inr ⟨content, text, m, rfl, htext, hparse, hversion, rfl⟩
          next => cases h

/-- The metadata are accepted if they can be read and count what the graph has, or are missing. -/
theorem checkMetadata_eq_ok_iff :
    files.checkMetadata t g = .ok () ↔
      ∃ found, files.readMetadata t = .ok found ∧
        ∀ m, found = some m → checkCounts m g = .ok () := by
  unfold checkMetadata
  cases files.readMetadata t with
  | error e => exact ⟨nofun, nofun⟩
  | ok found =>
    dsimp only [bind, Except.bind]
    cases found with
    | none => exact ⟨fun _ => ⟨none, rfl, nofun⟩, fun _ => rfl⟩
    | some m =>
      refine ⟨?_, ?_⟩
      · intro h
        refine ⟨some m, rfl, ?_⟩
        intro m' hm
        cases hm
        exact h
      · intro ⟨found, hfound, hcounts⟩
        cases hfound
        exact hcounts m rfl

/-- Metadata agree with a graph exactly if the check of a load accepts them. -/
theorem agrees_iff :
    Agrees g (t.at? files.metadata) ↔ files.checkMetadata t g = .ok () := by
  rw [checkMetadata_eq_ok_iff]
  refine ⟨?_, ?_⟩
  · intro h
    generalize hentry : t.at? files.metadata = entry at h
    cases h with
    | missing => exact ⟨none, readMetadata_of_missing hentry, nofun⟩
    | counted htext hparse hversion hnodes hexternal =>
      refine ⟨_, readMetadata_of_file hentry htext hparse hversion, ?_⟩
      intro m hm
      cases hm
      exact checkCounts_eq_ok_iff.2 ⟨hnodes, hexternal⟩
  · intro h
    obtain ⟨found, hfound, hcounts⟩ := h
    rcases exists_of_readMetadata hfound with ⟨hmissing, -⟩ |
      ⟨content, text, m, hfile, htext, hparse, hversion, hm⟩
    · rw [hmissing]
      exact .missing
    · obtain ⟨hnodes, hexternal⟩ := checkCounts_eq_ok_iff.1 (hcounts m hm)
      rw [hfile]
      exact .counted htext hparse hversion hnodes hexternal

/-- A load succeeds if all of its stages do. -/
theorem load_eq_ok_iff_read :
    files.load lookup t = .ok g ↔
      ∃ content, files.readNodes t = .ok content ∧ decodeNodes lookup content = .ok g ∧
        files.checkMetadata t g = .ok () := by
  rw [load_eq]
  cases files.readNodes t with
  | error e => exact ⟨nofun, nofun⟩
  | ok content =>
    dsimp only [bind, Except.bind]
    -- the later stages are only reached with what the earlier ones have given
    cases hgraph : decodeNodes lookup content with
    | error e =>
      refine ⟨nofun, ?_⟩
      intro ⟨content', hcontent, hgraph', _⟩
      cases hcontent
      cases hgraph.symm.trans hgraph'
    | ok g' =>
      dsimp only
      cases hmetadata : files.checkMetadata t g' with
      | error e =>
        refine ⟨nofun, ?_⟩
        intro ⟨content', hcontent, hgraph', hmetadata'⟩
        cases hcontent
        cases hgraph.symm.trans hgraph'
        cases hmetadata.symm.trans hmetadata'
      | ok _ =>
        refine ⟨?_, ?_⟩
        · intro h
          cases h
          exact ⟨content, rfl, hgraph, hmetadata⟩
        · intro ⟨content', hcontent, hgraph', _⟩
          cases hcontent
          cases hgraph.symm.trans hgraph'
          rfl

/-- A load succeeds with the graph of the node file if the metadata agree with it. -/
theorem load_eq_ok_iff_agrees :
    files.load lookup t = .ok g ↔
      ∃ content, t.at? files.nodes = some (.file content) ∧ decodeNodes lookup content = .ok g ∧
        Agrees g (t.at? files.metadata) := by
  rw [load_eq_ok_iff_read]
  refine exists_congr ?_
  intro content
  rw [readNodes_eq_ok_iff, agrees_iff]

/-- A load does not see more of a tree than what is at its two paths. -/
theorem load_of_at?_eq (hnodes : u.at? files.nodes = t.at? files.nodes)
    (hmetadata : u.at? files.metadata = t.at? files.metadata) (h : files.load lookup t = .ok g) :
    files.load lookup u = .ok g := by
  rw [load_eq_ok_iff_agrees] at h ⊢
  rw [hnodes, hmetadata]
  exact h

/-- Nothing but the metadata can stand against a load. -/
theorem load_of_missing (hnodes : u.at? files.nodes = t.at? files.nodes)
    (hmetadata : u.at? files.metadata = none) (h : files.load lookup t = .ok g) :
    files.load lookup u = .ok g := by
  obtain ⟨content, hcontent, hgraph, -⟩ := load_eq_ok_iff_agrees.1 h
  refine load_eq_ok_iff_agrees.2 ⟨content, hnodes.trans hcontent, hgraph, ?_⟩
  rw [hmetadata]
  exact .missing

/-! ## The written contents -/

/-- The text of well-formed nodes in the order of their indices holds the graph of these nodes. -/
theorem decodeNodes_nodesContent (hnumbered : g.Numbered)
    (hwell : ∀ node ∈ g.nodes, node.WellFormed lookup) :
    decodeNodes lookup (nodesContent g) = .ok g.reread := by
  have hcontent : nodesContent g = tag ++ opener :: (g.nodes.flatMap Node.encode ++ endMarker) := by
    unfold nodesContent
    rw [Record.encodeAll_unbound]
  have hindex : ∀ i (h : i < g.nodes.length), g.nodes[i].index = .ofNat (Graph.empty.size + i) := by
    intro i h
    rw [hnumbered i h]
    show _ = UInt32.ofNat (0 + i)
    rw [Nat.zero_add]
  rw [decodeNodes_eq, hcontent, ByteStream.token_append (by decide) _ .complete 0]
  dsimp only
  rw [if_pos rfl, Graph.extend_encode hwell hindex]
  rfl

/-- The metadata that are written with a graph agree with all that is read in its place. -/
theorem agrees_metadataContent {g' : Graph} (hsize : g.size < UInt64.size) (hsame : g.Same g')
    (createdAt : UInt64) : Agrees g' (some (.file (metadataContent createdAt g))) := by
  have hexternal := Nat.lt_of_le_of_lt g.externalCount_le_size hsize
  refine .counted (Utf8.decode?_encode _) (Metadata.parse?_render _) rfl ?_ ?_
  · show (UInt64.ofNat g.size).toNat = g'.size
    rw [UInt64.toNat_ofNat_of_lt' hsize, Graph.size_eq_of_same hsame]
  · show (UInt64.ofNat g.externalCount).toNat = g'.externalCount
    rw [UInt64.toNat_ofNat_of_lt' hexternal, Graph.externalCount_eq_of_same hsame]

/-- A written graph is loaded, with or without its metadata. -/
theorem load_written (hnumbered : g.Numbered) (hsize : g.size < UInt64.size)
    (hwell : ∀ node ∈ g.nodes, node.WellFormed lookup) (createdAt : UInt64)
    (hnodes : t.at? files.nodes = some (.file (nodesContent g)))
    (hmetadata : t.at? files.metadata = none ∨
      t.at? files.metadata = some (.file (metadataContent createdAt g))) :
    files.load lookup t = .ok g.reread := by
  refine load_eq_ok_iff_agrees.2 ⟨_, hnodes, decodeNodes_nodesContent hnumbered hwell, ?_⟩
  rcases hmetadata with hmetadata | hmetadata
  · rw [hmetadata]
    exact .missing
  · rw [hmetadata]
    exact agrees_metadataContent hsize g.same_reread createdAt

end TraceGraph.TraceFiles
