import TraceGraph.Proofs.TraceFiles.Interruption

/-!
# What a failed save leaves behind

A failed save should leave no prepared files behind. Whether it does depends on the stage in
which it fails, so the proof follows the stages.

If the files cannot be prepared, which is the case exactly if there is no room for one of
them (`runSteps_stageSteps_eq_ok_iff`), whatever was prepared is removed again. The tree is
then what it was but for the two places of the prepared files, and there is no file in these
(`tidied_discard`).

If both are prepared, a move can fail only if a directory stands in its way: what is moved
was written, and the path that it is moved to leads somewhere, because the longer path of
the prepared file does (`exists_resolve_of_staging`). The first two of the three last steps
can fail so. The last one cannot, for the place of the metadata was cleared before
(`runSteps_commitSteps`). In these two cases nothing is removed, and both prepared files
stay (`Left`).

> `save_tidied_or_left`: a failed save leaves the old node file in its place; it is tidied
> up unless
> both files could be prepared and a directory stands where one of them belongs, and in that
> case
> both are left.

`save_metadataDirectory` is the smallest tree in which this happens.
-/

namespace TraceGraph

namespace FileTree

variable {t u : FileTree} {p : Path}

/-- More paths may be named than were touched. -/
theorem Touched.mono {paths more : List Path} (h : Touched t u paths) (hsub : paths ⊆ more) :
    Touched t u more := by
  obtain ⟨places, hchanged, hplaces⟩ := h
  refine ⟨places, hchanged, ?_⟩
  intro q hq
  obtain ⟨p, hp, hresolve⟩ := hplaces q hq
  exact ⟨p, hsub hp, hresolve⟩

/-- Only a directory cannot be removed where something is. -/
theorem removeIfPresent_eq_error_iff :
    (∃ e, t.removeIfPresent p = .error e) ↔ t.at? p = some .directory := by
  unfold removeIfPresent
  rw [contains_eq_isSome]
  cases hp : t.at? p with
  | none => exact ⟨nofun, nofun⟩
  | some entry =>
    cases entry with
    | file content =>
      obtain ⟨u, hu⟩ := remove_of_at? hp
      refine ⟨?_, nofun⟩
      intro h
      obtain ⟨e, he⟩ := h
      rw [Option.isSome_some, if_pos rfl, hu] at he
      cases he
    | directory =>
      refine ⟨fun _ => rfl, ?_⟩
      intro _
      rw [Option.isSome_some, if_pos rfl]
      cases hr : t.remove p with
      | error e => exact ⟨e, rfl⟩
      | ok u =>
        obtain ⟨place, content, hplace, hfile, -⟩ := remove_eq_ok_iff.1 hr
        rw [at?_of_resolve hplace, hfile] at hp
        cases hp

/-- A file that is there cannot be moved to a path that leads somewhere if and only if a directory
is there. -/
theorem rename_eq_error_iff {destination : Path} {content : Bytes} {q : Place}
    (h : t.at? p = some (.file content)) (hq : t.resolve destination = .ok q) :
    (∃ e, t.rename p destination = .error e) ↔ t.at? destination = some .directory := by
  refine ⟨?_, ?_⟩
  · intro hfailed
    obtain ⟨e, he⟩ := hfailed
    by_contra hdirectory
    rw [at?_of_resolve hq] at hdirectory
    obtain ⟨u, hu⟩ := rename_of_at? h ⟨q, hq, hdirectory⟩
    rw [he] at hu
    cases hu
  · intro hdirectory
    cases hr : t.rename p destination with
    | error e => exact ⟨e, rfl⟩
    | ok u =>
      obtain ⟨origin, place, content', -, hplace, -, hfree, -⟩ := rename_eq_ok_iff.1 hr
      rw [← at?_of_resolve hplace] at hfree
      exact absurd hdirectory hfree

end FileTree

namespace TraceFiles

open FileTree

variable {files : TraceFiles} {createdAt : UInt64} {g : Graph} {t t₁ u : FileTree}

/-- The tree `u` is `t` but for the files that were prepared, and these are gone. -/
structure Tidied (files : TraceFiles) (t u : FileTree) : Prop where
  stagedNodes : ∀ content, u.at? (staging files.nodes) ≠ some (.file content)
  stagedMetadata : ∀ content, u.at? (staging files.metadata) ≠ some (.file content)
  nodes : u.at? files.nodes = t.at? files.nodes
  metadata : u.at? files.metadata = t.at? files.metadata
  others : t.Touched u [staging files.nodes, staging files.metadata]

/-- Both files can be prepared, but a directory stands where one of them belongs. -/
structure Blocked (files : TraceFiles) (t : FileTree) : Prop where
  stagedNodes : t.Vacant (staging files.nodes)
  stagedMetadata : t.Vacant (staging files.metadata)
  directory : t.at? files.nodes = some .directory ∨ t.at? files.metadata = some .directory

/-! ## Saves that fail while the files are prepared -/

/-- After discarding, no file is at the path. A directory can be, since it is not removed.
-/
theorem discard_spec (p : Path) (t : FileTree) :
    t.Touched (discard p t) [p] ∧ ∀ content, (discard p t).at? p ≠ some (.file content) := by
  unfold discard
  cases hr : t.remove p with
  | ok u =>
    obtain ⟨hgone, htouched⟩ := touched_remove hr
    refine ⟨htouched, ?_⟩
    intro content hfile
    rw [hgone] at hfile
    cases hfile
  | error e =>
    refine ⟨.refl t [p], ?_⟩
    intro content hfile
    obtain ⟨u, hu⟩ := remove_of_at? hfile
    rw [hr] at hu
    cases hu

/-- What was done to the prepared files only is undone by discarding them. -/
theorem tidied_discard (hs : files.Separate)
    (h : t.Touched t₁ [staging files.nodes, staging files.metadata]) :
    files.Tidied t (discard (staging files.metadata) (discard (staging files.nodes) t₁)) := by
  obtain ⟨htouched₂, hgone₂⟩ := discard_spec (staging files.nodes) t₁
  obtain ⟨htouched₃, hgone₃⟩ :=
    discard_spec (staging files.metadata) (discard (staging files.nodes) t₁)
  have hothers := ((h.trans htouched₂).trans htouched₃).mono
    (List.append_subset.2 ⟨List.append_subset.2 ⟨List.Subset.refl _, by simp⟩, by simp⟩)
  have hkept : ∀ f : TraceFile, f ≠ .stagedNodes → f ≠ .stagedMetadata →
      (discard (staging files.metadata) (discard (staging files.nodes) t₁)).at? (files.path f) =
        t.at? (files.path f) := by
    intro f hnodes hmetadata
    refine hothers.at?_eq fun p hp place => ?_
    rcases List.mem_cons.1 hp with hp | hp
    · rw [hp]
      exact hs.apart .stagedNodes f (Ne.symm hnodes) t place
    · rw [List.mem_singleton.1 hp]
      exact hs.apart .stagedMetadata f (Ne.symm hmetadata) t place
  refine ⟨?_, hgone₃, hkept .nodes (by decide) (by decide),
    hkept .metadata (by decide) (by decide), hothers⟩
  intro content hfile
  -- the second file is removed from another place, so the first one does not come back
  have hcontents := congrFun (contents_of_touched hs (f := .stagedMetadata) htouched₃) .stagedNodes
  rw [Function.update_of_ne (by decide)] at hcontents
  exact hgone₂ content (hcontents.symm.trans hfile)

/-- Preparing the files touches nothing but their own two paths, whether or not it succeeds.
-/
theorem touched_stageSteps (hs : files.Separate) (createdAt : UInt64) (g : Graph) (t : FileTree) :
    t.Touched (runSteps (files.stageSteps createdAt g) t).2
      [staging files.nodes, staging files.metadata] := by
  unfold stageSteps runSteps
  dsimp only [FileStep.run]
  cases hnodes : t.write (staging files.nodes) (nodesContent g) with
  | error e => exact .refl t _
  | ok t₁ =>
    have htouched := (touched_write (hs.named .stagedNodes) hnodes).2
    unfold runSteps
    dsimp only [FileStep.run]
    cases hmetadata : t₁.write (staging files.metadata) (metadataContent createdAt g) with
    | error e => exact htouched.mono (List.cons_subset_cons _ (List.nil_subset _))
    | ok t₂ => exact htouched.trans (touched_write (hs.named .stagedMetadata) hmetadata).2

/-- What was written to had room for it. -/
theorem vacant_of_write (hs : files.Separate) {f : TraceFile} {content : Bytes}
    (h : t.write (files.path f) content = .ok u) : t.Vacant (files.path f) := by
  obtain ⟨place, hplace, hfree, -⟩ := (write_eq_ok_iff (hs.named f)).1 h
  exact ⟨place, hplace, hfree⟩

/-- Both files are prepared if there is room for both. -/
theorem runSteps_stageSteps_eq_ok_iff (hs : files.Separate) :
    (runSteps (files.stageSteps createdAt g) t).1 = .ok () ↔
      t.Vacant (staging files.nodes) ∧ t.Vacant (staging files.metadata) := by
  unfold stageSteps runSteps
  dsimp only [FileStep.run]
  cases hnodes : t.write (staging files.nodes) (nodesContent g) with
  | error e =>
    refine ⟨?_, ?_⟩
    · intro hok
      cases hok
    · intro h
      obtain ⟨u, hu⟩ := write_of_vacant (hs.named .stagedNodes) h.1 (nodesContent g)
      cases hnodes.symm.trans hu
  | ok t₁ =>
    obtain ⟨places, hchanged, -⟩ := (touched_write (hs.named .stagedNodes) hnodes).2
    unfold runSteps
    dsimp only [FileStep.run]
    cases hmetadata : t₁.write (staging files.metadata) (metadataContent createdAt g) with
    | error e =>
      refine ⟨?_, ?_⟩
      · intro hok
        cases hok
      · intro h
        obtain ⟨u, hu⟩ := write_of_vacant (hs.named .stagedMetadata) (hchanged.vacant h.2)
          (metadataContent createdAt g)
        cases hmetadata.symm.trans hu
    | ok t₂ =>
      refine ⟨fun _ => ⟨?_, ?_⟩, fun _ => rfl⟩
      · exact vacant_of_write hs (f := .stagedNodes) hnodes
      · -- the second file is written after the first, so its room is that of the tree
        -- before
        exact hchanged.symm.vacant (vacant_of_write hs (f := .stagedMetadata) hmetadata)

/-- Steps fail as one of them fails. -/
theorem exists_failure_of_runSteps {steps : List SaveStep} {failure : SaveError}
    (h : (runSteps steps t).1 = .error failure) : ∃ s ∈ steps, ∃ e, failure = s.failure e := by
  induction steps generalizing t with
  | nil => cases h
  | cons s steps ih =>
    unfold runSteps at h
    cases hstep : s.step.run t with
    | error e =>
      rw [hstep] at h
      exact ⟨s, List.mem_cons_self .., e, (Except.error.inj h).symm⟩
    | ok t₁ =>
      rw [hstep] at h
      obtain ⟨s', hs', hfailure⟩ := ih h
      exact ⟨s', List.mem_cons_of_mem _ hs', hfailure⟩

/-! ## Saves that fail while the files are moved -/

/-- Where the prepared file can stand, there is room for the file itself. -/
theorem exists_resolve_of_staging (dir : Path) (name : String) :
    let files := TraceFiles.of dir name
    (t.Vacant (staging files.nodes) → ∃ q, t.resolve files.nodes = .ok q) ∧
    (t.Vacant (staging files.metadata) → ∃ q, t.resolve files.metadata = .ok q) := by
  intro files
  obtain ⟨text, hpath⟩ := exists_path_of dir name
  refine ⟨?_, ?_⟩
  · intro h
    obtain ⟨q, hq, -⟩ := h
    have hstaged : t.resolve ⟨text ++ (".nodes" ++ ".tmp")⟩ = .ok q := by
      rw [← hq]
      exact congrArg t.resolve (hpath .stagedNodes).symm
    rw [show files.nodes = ⟨text ++ ".nodes"⟩ from hpath .nodes]
    exact Path.exists_resolve_of_append (by decide) (by decide) hstaged
  · intro h
    obtain ⟨q, hq, -⟩ := h
    have hstaged : t.resolve ⟨text ++ (".nodes.meta" ++ ".tmp")⟩ = .ok q := by
      rw [← hq]
      exact congrArg t.resolve (hpath .stagedMetadata).symm
    rw [show files.metadata = ⟨text ++ ".nodes.meta"⟩ from hpath .metadata]
    exact Path.exists_resolve_of_append (by decide) (by decide) hstaged

/-- What a save leaves if it fails with both files prepared. Metadata that could be removed are
gone, although the nodes that they described are still there. -/
structure Left (files : TraceFiles) (createdAt : UInt64) (g : Graph) (t u : FileTree) : Prop where
  stagedNodes : u.at? (staging files.nodes) = some (.file (nodesContent g))
  stagedMetadata : u.at? (staging files.metadata) = some (.file (metadataContent createdAt g))
  nodes : u.at? files.nodes = t.at? files.nodes
  metadata : t.at? files.metadata ≠ some .directory → u.at? files.metadata = none

/-- A save that has prepared both files and has not moved the nodes leaves both of them. -/
theorem Progress.left {k : Nat} (h : Progress files createdAt g t k u) (hlow : 2 ≤ k)
    (hhigh : k < 4) (hmetadata : t.at? files.metadata ≠ some .directory → 3 ≤ k) :
    files.Left createdAt g t u where
  stagedNodes := h.stagedNodes (by omega) hhigh
  stagedMetadata := h.stagedMetadata hlow (by omega)
  nodes := by
    have hnodes := h.nodes
    rwa [if_pos hhigh] at hnodes
  metadata := by
    intro hfree
    have hgone := h.metadata
    have hlast := hmetadata hfree
    rwa [if_neg (by omega), if_pos (by omega)] at hgone

/-- The prepared files are moved unless a directory stands where one of them belongs, and in that
case both are left. The last of the moves never fails. -/
theorem runSteps_commitSteps (hs : files.Separate) {q q' : Place}
    (hq : t₁.resolve files.nodes = .ok q) (hq' : t₁.resolve files.metadata = .ok q')
    (h : Progress files createdAt g t 2 t₁) :
    let blocked := t.at? files.nodes = some .directory ∨ t.at? files.metadata = some .directory
    let moved := runSteps files.commitSteps t₁
    (moved.1 = .ok () ∧ ¬blocked) ∨
      ∃ failure, moved.1 = .error failure ∧ (∀ e, failure ≠ .cannotMoveMetadata e) ∧ blocked ∧
        files.Left createdAt g t moved.2 := by
  have hmetadata : t₁.at? files.metadata = t.at? files.metadata := h.metadata
  unfold commitSteps runSteps
  dsimp only [FileStep.run]
  cases hremove : t₁.removeIfPresent files.metadata with
  | error e =>
    have hdirectory : t.at? files.metadata = some .directory := by
      rw [← hmetadata]
      exact removeIfPresent_eq_error_iff.1 ⟨e, hremove⟩
    refine .inr ⟨.cannotReplaceMetadata e, rfl, ?_, .inr hdirectory,
      h.left (by decide) (by decide) fun hfree => absurd hdirectory hfree⟩
    intro e' he
    cases he
  | ok t₂ =>
    have hfree : t.at? files.metadata ≠ some .directory := by
      intro hdirectory
      rw [← hmetadata] at hdirectory
      obtain ⟨e, he⟩ := removeIfPresent_eq_error_iff.2 hdirectory
      cases hremove.symm.trans he
    have htouched₂ := (touched_removeIfPresent hremove).2
    have h₂ : Progress files createdAt g t 3 t₂ := h.made hs rfl hremove
    have hnodes : t₂.at? files.nodes = t.at? files.nodes := h₂.nodes
    have hmoves := rename_eq_error_iff (h₂.stagedNodes (by decide) (by decide))
      (htouched₂.resolve_eq_ok_iff.2 hq)
    rw [hnodes] at hmoves
    unfold runSteps
    dsimp only [FileStep.run]
    cases hrename : t₂.rename (staging files.nodes) files.nodes with
    | error e =>
      refine .inr ⟨.cannotMoveNodes files.nodes e, rfl, ?_, .inl (hmoves.1 ⟨e, hrename⟩),
        h₂.left (by decide) (by decide) fun _ => Nat.le_refl 3⟩
      intro e' he
      cases he
    | ok t₃ =>
      have hfree' : t.at? files.nodes ≠ some .directory := by
        intro hdirectory
        obtain ⟨e, he⟩ := hmoves.2 hdirectory
        cases hrename.symm.trans he
      have htouched₃ := (touched_rename hrename).2
      have h₃ : Progress files createdAt g t 4 t₃ := h₂.made hs rfl hrename
      have hgone : t₃.at? files.metadata = none := h₃.metadata
      have hlast := rename_eq_error_iff (h₃.stagedMetadata (by decide) (by decide))
        (htouched₃.resolve_eq_ok_iff.2 (htouched₂.resolve_eq_ok_iff.2 hq'))
      unfold runSteps
      dsimp only [FileStep.run]
      cases hrename' : t₃.rename (staging files.metadata) files.metadata with
      | error e =>
        -- the old metadata were removed, so nothing is in the way
        have hdirectory := hlast.1 ⟨e, hrename'⟩
        cases hgone.symm.trans hdirectory
      | ok t₄ => exact .inl ⟨rfl, fun hblocked => hblocked.elim hfree' hfree⟩

/-! ## All saves -/

/-- A save that fails has not replaced the node file, and it is tidied up unless the two files could
be prepared but not moved; then both of them are left. -/
theorem save_tidied_or_left (dir : Path) (name : String) (createdAt : UInt64) (g : Graph)
    (t : FileTree) :
    let files := TraceFiles.of dir name
    let saved := files.save createdAt g t
    (∀ e, saved.1 ≠ .error (.cannotMoveMetadata e)) ∧
    (¬files.Blocked t → saved.1 = .ok () ∨ files.Tidied t saved.2) ∧
    (files.Blocked t → saved.1 ≠ .ok () ∧ files.Left createdAt g t saved.2) := by
  intro files saved
  have hs : files.Separate := separate_of dir name
  have htouched := touched_stageSteps hs createdAt g t
  -- the save fails while it prepares its files, or goes on to move them
  cases hstage : runSteps (files.stageSteps createdAt g) t with
  | mk result t₁ =>
    rw [hstage] at htouched
    cases result with
    | error failure =>
      have hsaved : saved = (.error failure,
          discard (staging files.metadata) (discard (staging files.nodes) t₁)) := by
        show files.save createdAt g t = _
        unfold save
        rw [hstage]
      have hblocked : ¬files.Blocked t := by
        intro h
        have hok : (runSteps (files.stageSteps createdAt g) t).1 = .ok () :=
          (runSteps_stageSteps_eq_ok_iff hs).2 ⟨h.stagedNodes, h.stagedMetadata⟩
        rw [hstage] at hok
        cases hok
      rw [hsaved]
      refine ⟨?_, fun _ => .inr (tidied_discard hs htouched), fun h => absurd h hblocked⟩
      intro e he
      obtain ⟨s, hmem, e', hfailure⟩ := exists_failure_of_runSteps (congrArg Prod.fst hstage)
      rw [Except.error.inj he] at hfailure
      rcases List.mem_cons.1 hmem with rfl | hmem
      · cases hfailure
      · rw [List.mem_singleton.1 hmem] at hfailure
        cases hfailure
    | ok _ =>
      have hsaved : saved = runSteps files.commitSteps t₁ := by
        show files.save createdAt g t = _
        unfold save
        rw [hstage]
      have hroom := (runSteps_stageSteps_eq_ok_iff hs).1 (congrArg Prod.fst hstage)
      obtain ⟨q, hq⟩ := (exists_resolve_of_staging dir name).1 hroom.1
      obtain ⟨q', hq'⟩ := (exists_resolve_of_staging dir name).2 hroom.2
      obtain ⟨done, hsteps, hdone⟩ := interrupted_runSteps (files.stageSteps createdAt g) t
      obtain ⟨hprogress, -⟩ := progress_of_interrupted hs (hsteps.append _)
      rw [hdone (congrArg Prod.fst hstage), hstage] at hprogress
      rw [hsaved]
      rcases runSteps_commitSteps hs (htouched.resolve_eq_ok_iff.2 hq)
        (htouched.resolve_eq_ok_iff.2 hq') hprogress with ⟨hok, hfree⟩ | hfailed
      · refine ⟨?_, fun _ => .inl hok, fun h => absurd h.directory hfree⟩
        intro e he
        cases hok.symm.trans he
      · obtain ⟨failure, herror, hmove, hblocked, hleft⟩ := hfailed
        refine ⟨?_, fun h => absurd ⟨hroom.1, hroom.2, hblocked⟩ h, fun _ => ⟨?_, hleft⟩⟩
        · intro e he
          exact hmove e (Except.error.inj (herror.symm.trans he))
        · intro hok
          cases herror.symm.trans hok

/-- With a directory in the place of the metadata, a save of no nodes fails and leaves both prepared
files. -/
theorem save_metadataDirectory :
    let files := TraceFiles.of ⟨""⟩ "t"
    let t := FileTree.empty.set ["t.nodes.meta"] .directory
    let saved := files.save 7 .empty t
    saved.1 = .error (.cannotReplaceMetadata .isDirectory) ∧
    t.at? (staging files.nodes) = none ∧ t.at? (staging files.metadata) = none ∧
    saved.2.at? (staging files.nodes) = some (.file (nodesContent .empty)) ∧
    saved.2.at? (staging files.metadata) = some (.file (metadataContent 7 .empty)) ∧
    ¬files.Tidied t saved.2 := by
  intro files t saved
  have hleft : saved.2.at? (staging files.nodes) = some (.file (nodesContent .empty)) := by
    decide +kernel
  exact ⟨by decide +kernel, by decide, by decide, hleft, by decide +kernel,
    fun h => h.stagedNodes _ hleft⟩

end TraceFiles

end TraceGraph
