import TraceGraph.Proofs.Builder.Growth
import TraceGraph.Proofs.TraceFiles.Save

/-!
# Checkpoints

A graph that is saved in the middle of a build and loaded again can take the place of the
one that was saved, and nothing that follows can tell the two apart. This is what a
checkpoint is for, and three things have to come together for it.

The save has to succeed. It does wherever there is room for the files
(`TraceFiles.save_of_ready`).

The load has to find every block of the graph, in a store to which more may have been
recorded since. After a run the builder is sound (`Sound.built`), so the history has each
block under the address and the mutation that were written, and a history that has grown
still has it (`Known.wellFormed`). With lists that fit their counts the graph is then loaded
(`Sound.load_save`).

The rest of the build has to go on as before. What is loaded agrees with what was saved in
all but the scratch state of the nodes, and builders that differ in no more than that report
the same and stay the same (`Same.run`). Summary, drawing and layout are therefore the same
as well (`Graph.Same.shown`).

The main result is `run_checkpoint`. That the lists fit their counts is a hypothesis of it,
which `countable_run` supplies for all runs of fewer operations than there are counts.
-/

namespace TraceGraph.Builder

/-- What a run makes of an empty graph and an empty store. -/
def built (kind : StoreKind) (steps : List BuildStep) : Builder :=
  (run steps { store := kind.empty }).2

variable {h h' : History} {b : Builder}

/-- After any run on an empty store the builder is sound for what was recorded in it. -/
theorem Sound.built {kind : StoreKind} {steps : List BuildStep}
    (hnumbered : (History.of (recorded steps)).Numbered)
    (hadmits : kind.Admits (.of (recorded steps))) :
    Sound (.of (recorded steps)) (built kind steps) ∧ (built kind steps).store.kind = kind := by
  have hkind := Store.kind_empty kind
  obtain ⟨hsound, hkind'⟩ := Sound.run (.empty kind) hnumbered (hkind.symm ▸ hadmits)
  exact ⟨hsound, hkind'.trans hkind⟩

/-- A node with a known block can be written and found again through any later store. -/
theorem Known.wellFormed {node : Node} (hknown : Known h node) (hext : h.Extends h')
    {store : Store} (hholds : store.Holds h') (hcountable : node.toRecord.Countable) :
    node.WellFormed store.lookup := by
  refine ⟨hcountable, ?_, fun block hblock => (hknown block hblock).2⟩
  intro block hblock
  rw [Store.resolve_of_holds hholds, hext.getElem? (hknown block hblock).1]

/-- A saved graph is the same graph when it is loaded through the store as it has become. -/
theorem Sound.load_save (hsound : Sound h b) (hcountable : ∀ node ∈ b.graph.nodes,
      node.toRecord.Countable) (hsize : b.graph.size < UInt64.size) {files : TraceFiles}
    (hs : files.Separate) {t : FileTree} (hready : files.Ready t) (createdAt : UInt64) :
    ∃ u, files.save createdAt b.graph t = (.ok (), u) ∧
      ∀ h' store, h.Extends h' → Store.Holds store h' →
        files.load store.lookup u = .ok b.graph.reread := by
  obtain ⟨u, hsave, hload⟩ :=
    TraceFiles.load_save hs hready createdAt hsound.numbered hsize
  refine ⟨u, hsave, fun h' store hext hholds => hload _ ?_⟩
  intro node hnode
  exact (hsound.nodes node hnode).wellFormed hext hholds (hcountable node hnode)

/-- A checkpoint anywhere in a build cannot be noticed: both the save and the load succeed, and the
rest of the build reports and shows the same with the loaded graph as with the saved one. -/
theorem run_checkpoint (kind : StoreKind) (steps rest : List BuildStep) (more : List Instruction)
    (dir : Path) (name : String) (createdAt : UInt64) {t : FileTree}
    (hready : (TraceFiles.of dir name).Ready t)
    (hnumbered : (History.of (recorded steps)).Numbered)
    (hadmits : kind.Admits (.of (recorded steps ++ more)))
    (hcountable : ∀ node ∈ (built kind steps).graph.nodes, node.toRecord.Countable)
    (hsize : (built kind steps).graph.size < UInt64.size) :
    let files := TraceFiles.of dir name
    let saved := built kind steps
    let later := (run (more.map .record) saved).2
    ∃ u loaded, files.save createdAt saved.graph t = (.ok (), u) ∧
      files.load later.store.lookup u = .ok loaded ∧ saved.graph.Same loaded ∧
      let plain := run rest later
      let resumed := run rest { later with graph := loaded }
      plain.1 = resumed.1 ∧ plain.2.graph.Same resumed.2.graph ∧
        Summary.of plain.2.graph = Summary.of resumed.2.graph ∧
        plain.2.graph.toDot = resumed.2.graph.toDot ∧
        ∀ sphere lift, plain.2.graph.layout sphere lift = resumed.2.graph.layout sphere lift := by
  intro files saved later
  have hext := History.extends_foldl (.of (recorded steps)) more
  rw [History.of_append] at hadmits
  obtain ⟨hsound, hkind⟩ := Sound.built hnumbered (hadmits.of_extends hext)
  obtain ⟨hholds, hgraph⟩ := run_record more hsound.holds (hkind.symm ▸ hadmits)
  obtain ⟨u, hsave, hload⟩ := hsound.load_save hcountable hsize (TraceFiles.separate_of dir name)
    hready createdAt
  -- the records since the save have left the graph alone
  have hsame : Same later { later with graph := saved.graph.reread } :=
    ⟨rfl, rfl, hgraph ▸ saved.graph.same_reread⟩
  obtain ⟨hanswers, hrest⟩ := hsame.run rest
  exact ⟨u, saved.graph.reread, hsave, hload _ _ hext hholds, saved.graph.same_reread, hanswers,
    hrest.graph, hrest.graph.shown⟩

/-- The loaded graph is built on with a block that was recorded on disk after the save. -/
theorem run_checkpoint_disk :
    let files := TraceFiles.of ⟨""⟩ "t"
    let steps : List BuildStep := [.record (.decoded 4096 "call" "0x7700" 5), .pushInternal {} 0,
      .pushExternal ⟨2, 3, 1⟩ 30464, .addEdge 0 1, .addEdge 1 1, .change 1 (.pushCall [(0, [125])])]
    let more := [Instruction.decoded 4096 "ret" "" 1]
    let rest : List BuildStep := [.bind 4096 1, .pushInternal {} 2, .addEdge 1 2]
    let later := (run (more.map .record) (built .disk steps)).2
    files.Ready .empty ∧
    ∃ u loaded, files.save 7 (built .disk steps).graph .empty = (.ok (), u) ∧
      files.load later.store.lookup u = .ok loaded ∧ (built .disk steps).graph.Same loaded ∧
      (run rest later).1 = (run rest { later with graph := loaded }).1 := by
  intro files steps more rest later
  have hready : files.Ready .empty := by
    intro f
    cases f with
    | nodes => decide
    | metadata => decide
    | stagedNodes => decide
    | stagedMetadata => decide
  obtain ⟨hcountable, hsize⟩ :=
    @countable_run StoreKind.disk.empty steps (by decide) (by decide)
  obtain ⟨u, loaded, hsave, hload, hsame, hanswers, -⟩ :=
    run_checkpoint .disk steps rest more ⟨""⟩ "t" 7 hready (History.numbered_of (by decide))
      (StoreKind.admits_of .disk (by decide) (by decide)) hcountable hsize
  exact ⟨hready, u, loaded, hsave, hload, hsame, hanswers⟩

end TraceGraph.Builder
