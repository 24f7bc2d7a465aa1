import TraceGraph.Proofs.TraceFiles.Interruption

/-!
# Saves that go through

A save writes two files beside their places, removes the old metadata and moves the two
files to their places. This module shows that it succeeds wherever there is room for the
four files, and what is then in the directory.

The room is `Ready`: each of the four paths leads to a place that is not that of a
directory. It is kept by every step, since no step puts a directory anywhere, and with it
each step can be made (`exists_made`). The two moves need more than room. What they move has
to be there, and it is, because an earlier step of the same save has written it; `Progress`,
the relation that is kept along an interrupted save, says so. The induction over the steps
carries both (`runSteps_of_ready`).

> `save_of_ready`: the save succeeds, and both files are in their places with the new
> content.

> `load_save`: every load from there gives the saved graph, as long as the lookup knows its
> blocks.

These are the statements about saves that go through. What is there if a save stops on the
way is the subject of the module on interruptions, and what a failing save leaves behind
that of the one on tidiness.
-/

namespace TraceGraph.TraceFiles

variable {files : TraceFiles} {createdAt : UInt64} {g : Graph} {t u : FileTree} {k : Nat}

/-- The next step of a save can be made. Each kind of step changes a path with room for a
file, and what a move takes away is what one of the first two steps has put there. -/
theorem exists_made {step : FileStep} (hs : files.Separate) (hready : files.Ready u)
    (hprogress : Progress files createdAt g t k u)
    (hstep : (saveSteps files createdAt g)[k]? = some step) :
    ∃ v, step.run u = .ok v ∧ files.Ready v := by
  rcases saveSteps_cases hstep with ⟨rfl, rfl⟩ | ⟨rfl, rfl⟩ | ⟨rfl, rfl⟩ | ⟨rfl, rfl⟩ | ⟨rfl, rfl⟩
  · obtain ⟨v, hv⟩ := FileTree.write_of_vacant (hs.named _) (hready .stagedNodes) (nodesContent g)
    exact ⟨v, hv, hready.of_touched (FileTree.touched_write (hs.named _) hv).2⟩
  · obtain ⟨v, hv⟩ := FileTree.write_of_vacant (hs.named _) (hready .stagedMetadata)
      (metadataContent createdAt g)
    exact ⟨v, hv, hready.of_touched (FileTree.touched_write (hs.named _) hv).2⟩
  · obtain ⟨v, hv⟩ := FileTree.removeIfPresent_of_vacant (hready .metadata)
    exact ⟨v, hv, hready.of_touched (FileTree.touched_removeIfPresent hv).2⟩
  -- what is moved was put in its place by one of the first two steps
  · have hstaged := hprogress.stagedNodes (by decide) (by decide)
    obtain ⟨v, hv⟩ := FileTree.rename_of_at? hstaged (hready .nodes)
    exact ⟨v, hv, hready.of_touched (FileTree.touched_rename hv).2⟩
  · have hstaged := hprogress.stagedMetadata (by decide) (by decide)
    obtain ⟨v, hv⟩ := FileTree.rename_of_at? hstaged (hready .metadata)
    exact ⟨v, hv, hready.of_touched (FileTree.touched_rename hv).2⟩

/-- Any of the steps that come next in a save can be made one after the other. -/
theorem runSteps_of_ready (hs : files.Separate) {steps : List SaveStep} (hready : files.Ready u)
    (hprogress : Progress files createdAt g t k u)
    (hsteps : ∀ i s, steps[i]? = some s → (saveSteps files createdAt g)[k + i]? = some s.step) :
    ∃ v, runSteps steps u = (.ok (), v) ∧ files.Ready v ∧
      Progress files createdAt g t (k + steps.length) v := by
  -- room and progress are both kept by a step; the steps that are left are counted from `k`
  induction steps generalizing k u with
  | nil => exact ⟨u, rfl, hready, hprogress⟩
  | cons s steps ih =>
    have hstep := hsteps 0 s rfl
    obtain ⟨v, hrun, hready'⟩ := exists_made hs hready hprogress hstep
    have hprogress' := hprogress.made hs hstep hrun
    have hrest : ∀ i s', steps[i]? = some s' →
        (saveSteps files createdAt g)[k + 1 + i]? = some s'.step := by
      intro i s' hi
      rw [Nat.add_assoc, Nat.add_comm 1 i]
      exact hsteps (i + 1) s' hi
    obtain ⟨w, hruns, hready'', hprogress''⟩ := ih hready' hprogress' hrest
    refine ⟨w, ?_, hready'', ?_⟩
    · unfold runSteps
      rw [hrun]
      exact hruns
    · rw [List.length_cons, Nat.add_comm _ 1, ← Nat.add_assoc]
      exact hprogress''

/-- A save into a tree with room for its files succeeds and brings both files to their places. -/
theorem save_of_ready (hs : files.Separate) (hready : files.Ready t) (createdAt : UInt64)
    (g : Graph) :
    ∃ u, files.save createdAt g t = (.ok (), u) ∧
      u.at? files.nodes = some (.file (nodesContent g)) ∧
      u.at? files.metadata = some (.file (metadataContent createdAt g)) := by
  have hstage : ∀ i s, (files.stageSteps createdAt g)[i]? = some s →
      (saveSteps files createdAt g)[0 + i]? = some s.step := by
    intro i s hi
    rw [Nat.zero_add]
    unfold saveSteps
    rw [List.getElem?_map, List.getElem?_append_left (List.getElem?_eq_some_iff.1 hi).1, hi]
    rfl
  have hcommit : ∀ i s, files.commitSteps[i]? = some s →
      (saveSteps files createdAt g)[0 + (files.stageSteps createdAt g).length + i]? =
        some s.step := by
    intro i s hi
    unfold saveSteps
    rw [Nat.zero_add, List.getElem?_map, List.getElem?_append_right (Nat.le_add_right ..),
      Nat.add_sub_cancel_left, hi]
    rfl
  -- the two halves of the save are one run of steps after the other, with the counter going
  -- on
  obtain ⟨t₁, hrun₁, hready₁, hprogress₁⟩ :=
    runSteps_of_ready hs hready (.start files createdAt g t) hstage
  obtain ⟨t₂, hrun₂, -, hprogress₂⟩ := runSteps_of_ready hs hready₁ hprogress₁ hcommit
  refine ⟨t₂, ?_, hprogress₂.nodes, hprogress₂.metadata⟩
  unfold save
  rw [hrun₁]
  exact hrun₂

/-- What a save has written is loaded through every lookup that knows the blocks of the graph. -/
theorem load_save (hs : files.Separate) (hready : files.Ready t) (createdAt : UInt64)
    (hnumbered : g.Numbered) (hsize : g.size < UInt64.size) :
    ∃ u, files.save createdAt g t = (.ok (), u) ∧
      ∀ lookup, (∀ node ∈ g.nodes, node.WellFormed lookup) →
        files.load lookup u = .ok g.reread := by
  obtain ⟨u, hsave, hnodes, hmetadata⟩ := save_of_ready hs hready createdAt g
  exact ⟨u, hsave, fun lookup hwell =>
    load_written hnumbered hsize hwell createdAt hnodes (.inr hmetadata)⟩

end TraceGraph.TraceFiles
