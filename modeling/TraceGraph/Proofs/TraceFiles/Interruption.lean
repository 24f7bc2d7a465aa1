import TraceGraph.Proofs.TraceFiles.Contents
import TraceGraph.Proofs.TraceFiles.Load

/-!
# Interrupted saves

A save can end at any moment, by a crash or by a step that fails, and a file that was being
written is then left with some beginning of its content (`FileStep.CutShort`). What can be
found after such an end is `Interrupted`: some steps were made, and the next one was cut
short or not begun.

How far a save has come can be read off the four files.

> `Progress k`: what is at the four paths after the first `k` changes of a save.

A step that is made takes `Progress k` to `Progress (k + 1)` (`Progress.made`), and one that
is cut short keeps it (`Progress.cutShort`), since only the prepared files are ever written
to. The induction over the steps is made once, for any such invariant
(`Interrupted.progress`).

From there on the steps are no longer needed. The node file is replaced in one step, the
fourth, and from the step before it on the old metadata are gone. So what is loaded is the
old graph up to that step and the new one behind it (`Progress.load`): in between, the nodes
stand without metadata, which is accepted, and never beside metadata that are not theirs.

A save that fails while it prepares its files also removes them again. `AfterSave` adds this
to the interruptions; it covers every moment of a save and every end of it, in particular
the ends that the program itself brings about (`afterSave_save`). The main result is
`load_afterSave`.
-/

namespace TraceGraph

/-- What a step leaves if it is cut short or fails: the tree as it was, or a file with a beginning
of the content that was being written. -/
inductive FileStep.CutShort (t : FileTree) : FileStep → FileTree → Prop where
  | untouched (step : FileStep) : CutShort t step t
  | partly {path : Path} {content : Bytes} {u : FileTree} (length : Nat)
      (h : t.write path (content.take length) = .ok u) : CutShort t (.write path content) u

/-- Steps are made in order from `t` until they end or are interrupted: `done` are those that were
made, and `u` is what is found afterwards. -/
inductive Interrupted :
    List FileStep → (t : FileTree) → (done : List FileStep) → FileTree → Prop where
  | finished {t : FileTree} : Interrupted [] t [] t
  | cut {step : FileStep} {steps : List FileStep} {t u : FileTree} (h : step.CutShort t u) :
      Interrupted (step :: steps) t [] u
  | made {step : FileStep} {steps done : List FileStep} {t t₁ u : FileTree}
      (h : step.run t = .ok t₁) (rest : Interrupted steps t₁ done u) :
      Interrupted (step :: steps) t (step :: done) u

/-- Some of these files were removed, in order. -/
inductive Discarded : List Path → FileTree → FileTree → Prop where
  | nil {t : FileTree} : Discarded [] t t
  | kept {p : Path} {paths : List Path} {t u : FileTree} (rest : Discarded paths t u) :
      Discarded (p :: paths) t u
  | removed {p : Path} {paths : List Path} {t t₁ u : FileTree} (h : t.remove p = .ok t₁)
      (rest : Discarded paths t₁ u) : Discarded (p :: paths) t u

namespace Interrupted

variable {steps done : List FileStep} {t u : FileTree}

/-- What the made steps advance and an interrupted step keeps is as far as the steps were made. -/
theorem progress {Inv : Nat → FileTree → Prop} {all : List FileStep}
    (hmade : ∀ k step t u, all[k]? = some step → Inv k t → step.run t = .ok u → Inv (k + 1) u)
    (hcut : ∀ k step t u, all[k]? = some step → Inv k t → step.CutShort t u → Inv k u)
    {k : Nat} (hsteps : steps = all.drop k) (h : Interrupted steps t done u) (hinv : Inv k t) :
    Inv (k + done.length) u ∧ done = steps.take done.length := by
  -- `k` counts the steps that were made before, so the steps that are left are `all.drop k`
  induction h generalizing k with
  | finished => exact ⟨hinv, rfl⟩
  | cut h =>
    refine ⟨hcut k _ _ _ ?_ hinv h, rfl⟩
    rw [← List.head?_drop, ← hsteps, List.head?_cons]
  | @made step steps done t t₁ u h rest ih =>
    have hstep : all[k]? = some step := by
      rw [← List.head?_drop, ← hsteps, List.head?_cons]
    have hrest : steps = all.drop (k + 1) := by
      rw [← List.tail_drop, ← hsteps, List.tail_cons]
    obtain ⟨hinv', hdone⟩ := ih hrest (hmade k step t t₁ hstep hinv h)
    refine ⟨?_, ?_⟩
    · rw [List.length_cons, Nat.add_comm _ 1, ← Nat.add_assoc]
      exact hinv'
    · rw [List.length_cons, List.take_succ_cons, ← hdone]

theorem length_le (h : Interrupted steps t done u) : done.length ≤ steps.length := by
  induction h with
  | finished => exact Nat.le_refl _
  | cut h => exact Nat.zero_le _
  | made h rest ih => exact Nat.succ_le_succ ih

/-- Steps that end can be followed by others that are not begun. -/
theorem append {step : FileStep} (h : Interrupted steps t done u) (more : List FileStep) :
    Interrupted (steps ++ step :: more) t done u := by
  induction h with
  | finished => exact .cut (.untouched step)
  | cut h => exact .cut h
  | made h rest ih => exact .made h ih

end Interrupted

namespace TraceFiles

/-! ## How far a save has come -/

/-- The changes that a save makes. -/
def saveSteps (files : TraceFiles) (createdAt : UInt64) (g : Graph) : List FileStep :=
  (files.stageSteps createdAt g ++ files.commitSteps).map SaveStep.step

/-- The files of a tree `u` that has become of `t` by the first `k` changes of a save. -/
structure Progress (files : TraceFiles) (createdAt : UInt64) (g : Graph) (t : FileTree) (k : Nat)
    (u : FileTree) : Prop where
  nodes : files.contents u .nodes =
    if k < 4 then files.contents t .nodes else some (.file (nodesContent g))
  metadata : files.contents u .metadata =
    if k < 3 then files.contents t .metadata
    else if k < 5 then none else some (.file (metadataContent createdAt g))
  stagedNodes : 1 ≤ k → k < 4 → files.contents u .stagedNodes = some (.file (nodesContent g))
  stagedMetadata : 2 ≤ k → k < 5 →
    files.contents u .stagedMetadata = some (.file (metadataContent createdAt g))

variable {files : TraceFiles} {createdAt : UInt64} {g : Graph} {t u v : FileTree} {k : Nat}
  {step : FileStep}

theorem Progress.start (files : TraceFiles) (createdAt : UInt64) (g : Graph) (t : FileTree) :
    Progress files createdAt g t 0 t := ⟨rfl, rfl, nofun, nofun⟩

/-- The five steps of a save, by their numbers. -/
theorem saveSteps_cases (h : (saveSteps files createdAt g)[k]? = some step) :
    (k = 0 ∧ step = .write (files.path .stagedNodes) (nodesContent g)) ∨
    (k = 1 ∧ step = .write (files.path .stagedMetadata) (metadataContent createdAt g)) ∨
    (k = 2 ∧ step = .removeIfPresent (files.path .metadata)) ∨
    (k = 3 ∧ step = .rename (files.path .stagedNodes) (files.path .nodes)) ∨
    (k = 4 ∧ step = .rename (files.path .stagedMetadata) (files.path .metadata)) := by
  match k, h with
  | 0, h => cases h; exact .inl ⟨rfl, rfl⟩
  | 1, h => cases h; exact .inr (.inl ⟨rfl, rfl⟩)
  | 2, h => cases h; exact .inr (.inr (.inl ⟨rfl, rfl⟩))
  | 3, h => cases h; exact .inr (.inr (.inr (.inl ⟨rfl, rfl⟩)))
  | 4, h => cases h; exact .inr (.inr (.inr (.inr ⟨rfl, rfl⟩)))
  | k + 5, h => cases h

/-- A step that is made brings the save one step further. -/
theorem Progress.made (hs : files.Separate) (h : Progress files createdAt g t k u)
    (hstep : (saveSteps files createdAt g)[k]? = some step) (hrun : step.run u = .ok v) :
    Progress files createdAt g t (k + 1) v := by
  obtain ⟨hn, hm, hsn, hsm⟩ := h
  -- both files are prepared, the old metadata removed, then the two are moved, nodes first
  rcases saveSteps_cases hstep with ⟨rfl, rfl⟩ | ⟨rfl, rfl⟩ | ⟨rfl, rfl⟩ | ⟨rfl, rfl⟩ | ⟨rfl, rfl⟩
  · have hc := contents_write hs hrun
    exact ⟨by simp [hc, hn], by simp [hc, hm], by simp [hc], by simp⟩
  · have hc := contents_write hs hrun
    exact ⟨by simp [hc, hn], by simp [hc, hm], by simp [hc, hsn], by simp [hc]⟩
  · have hc := contents_removeIfPresent hs hrun
    exact ⟨by simp [hc, hn], by simp [hc], by simp [hc, hsn], by simp [hc, hsm]⟩
  · have hc := contents_rename hs (by decide) hrun
    exact ⟨by simp [hc, hsn], by simp [hc, hm], by simp, by simp [hc, hsm]⟩
  · have hc := contents_rename hs (by decide) hrun
    exact ⟨by simp [hc, hn], by simp [hc, hsm], by simp, by simp⟩

/-- A step that is cut short touches no more than a file that is still prepared for its place. -/
theorem Progress.cutShort (hs : files.Separate) (h : Progress files createdAt g t k u)
    (hstep : (saveSteps files createdAt g)[k]? = some step) (hcut : step.CutShort u v) :
    Progress files createdAt g t k v := by
  obtain ⟨hn, hm, hsn, hsm⟩ := h
  cases hcut with
  | untouched => exact ⟨hn, hm, hsn, hsm⟩
  | partly length hwrite =>
    rcases saveSteps_cases hstep with ⟨rfl, heq⟩ | ⟨rfl, heq⟩ | ⟨rfl, heq⟩ | ⟨rfl, heq⟩ | ⟨rfl, heq⟩
    · obtain ⟨rfl, rfl⟩ := FileStep.write.inj heq
      have hc := contents_write hs hwrite
      exact ⟨by simp [hc, hn], by simp [hc, hm], by simp, by simp⟩
    · obtain ⟨rfl, rfl⟩ := FileStep.write.inj heq
      have hc := contents_write hs hwrite
      exact ⟨by simp [hc, hn], by simp [hc, hm], by simp [hc, hsn], by simp⟩
    -- only a file that is being written can be left unfinished
    · cases heq
    · cases heq
    · cases heq

/-- What is found after an interrupted save is as far as the steps that were made. -/
theorem progress_of_interrupted (hs : files.Separate) {done : List FileStep}
    (h : Interrupted (saveSteps files createdAt g) t done u) :
    Progress files createdAt g t done.length u ∧
      done = (saveSteps files createdAt g).take done.length := by
  have hprogress := h.progress (k := 0)
    (fun k step u v hstep hinv hrun => Progress.made (t := t) hs hinv hstep hrun)
    (fun k step u v hstep hinv hcut => Progress.cutShort (t := t) hs hinv hstep hcut)
    rfl (.start files createdAt g t)
  rwa [Nat.zero_add] at hprogress

/-- Removing files leaves the other ones alone. -/
theorem contents_of_discarded (hs : files.Separate) {staged : List TraceFile}
    (h : Discarded (staged.map files.path) t u) {f : TraceFile} (hf : f ∉ staged) :
    files.contents u f = files.contents t f := by
  induction staged generalizing t with
  | nil =>
    cases h
    rfl
  | cons f' staged ih =>
    rw [List.mem_cons, not_or] at hf
    cases h with
    | kept rest => exact ih rest hf.2
    | removed hremove rest =>
      rw [ih rest hf.2, contents_remove hs hremove, Function.update_of_ne hf.1]

/-! ## What is loaded -/

/-- Up to the moment at which the node file is replaced the old graph is loaded, and from then on
the new one. -/
theorem Progress.load {lookup : Lookup} {old : Graph} (hold : files.load lookup t = .ok old)
    (hindexed : g.Indexed) (hwell : ∀ node ∈ g.nodes, node.WellFormed lookup)
    (h : Progress files createdAt g t k u) :
    files.load lookup u = .ok (if k < 4 then old else g.reread) := by
  obtain ⟨hn, hm, -, -⟩ := h
  by_cases hmoved : k < 4
  · rw [if_pos hmoved] at hn ⊢
    by_cases hremoved : k < 3
    · rw [if_pos hremoved] at hm
      exact load_of_at?_eq hn hm hold
    · -- between the removal and the move no metadata stand against the old nodes
      rw [if_neg hremoved, if_pos (Nat.lt_succ_of_lt hmoved)] at hm
      exact load_of_missing hn hm hold
  · rw [if_neg hmoved] at hn ⊢
    rw [if_neg fun hlt => hmoved (Nat.lt_succ_of_lt hlt)] at hm
    refine load_written hindexed.numbered hindexed.size_lt hwell createdAt hn ?_
    by_cases hreplaced : k < 5
    · rw [if_pos hreplaced] at hm
      exact .inl hm
    · rw [if_neg hreplaced] at hm
      exact .inr hm

/-- What can be found after a save that began in `t`, whether or not it has ended: steps were made
up to some moment, or the staging has failed and the files that it left were removed as far as
possible. `moved` tells whether the new node file is in its place. -/
inductive AfterSave (files : TraceFiles) (createdAt : UInt64) (g : Graph) (t : FileTree) :
    (moved : Bool) → FileTree → Prop where
  | stopped {done : List FileStep} {u : FileTree}
      (h : Interrupted (saveSteps files createdAt g) t done u) :
      AfterSave files createdAt g t
        (decide (.rename (staging files.nodes) files.nodes ∈ done)) u
  | tidied {done : List FileStep} {t₁ u : FileTree}
      (h : Interrupted ((files.stageSteps createdAt g).map SaveStep.step) t done t₁)
      (rest : Discarded [staging files.nodes, staging files.metadata] t₁ u) :
      AfterSave files createdAt g t false u

/-- The node file is moved by the fourth step. -/
theorem move_mem_iff (files : TraceFiles) (createdAt : UInt64) (g : Graph) (n : Nat) :
    .rename (staging files.nodes) files.nodes ∈ (saveSteps files createdAt g).take n ↔ 4 ≤ n := by
  match n with
  | 0 => simp
  | 1 => simp [saveSteps, stageSteps]
  | 2 => simp [saveSteps, stageSteps]
  | 3 => simp [saveSteps, stageSteps, commitSteps]
  | n + 4 => simp [saveSteps, stageSteps, commitSteps]

/-- What is loaded after a save is decided by whether the node file was moved, also if the
prepared files have been removed since. -/
theorem AfterSave.load {lookup : Lookup} {old : Graph} {moved : Bool} (hs : files.Separate)
    (hold : files.load lookup t = .ok old) (hindexed : g.Indexed)
    (hwell : ∀ node ∈ g.nodes, node.WellFormed lookup)
    (h : AfterSave files createdAt g t moved u) :
    files.load lookup u = .ok (if moved then g.reread else old) := by
  cases h with
  | @stopped done u h =>
    obtain ⟨hprogress, hdone⟩ := progress_of_interrupted hs h
    have hmem := move_mem_iff files createdAt g done.length
    rw [← hdone] at hmem
    rw [hprogress.load hold hindexed hwell]
    by_cases hmoved : done.length < 4
    · rw [if_pos hmoved, decide_eq_false fun h => absurd (hmem.1 h) (Nat.not_le.2 hmoved)]
      rfl
    · rw [if_neg hmoved, decide_eq_true (hmem.2 (Nat.not_lt.1 hmoved))]
      rfl
  | @tidied done t₁ u h rest =>
    -- there are two steps of staging, and the move is the fourth of all
    have hfew : done.length ≤ 2 := h.length_le
    obtain ⟨hprogress, -⟩ := progress_of_interrupted hs (h.append _)
    have hload := hprogress.load hold hindexed hwell
    rw [if_pos (by omega)] at hload
    have hrest : Discarded ([.stagedNodes, .stagedMetadata].map files.path) t₁ u := rest
    exact load_of_at?_eq (contents_of_discarded hs hrest (f := .nodes) (by decide))
      (contents_of_discarded hs hrest (f := .metadata) (by decide)) hload

/-! ## The save itself -/

/-- Running steps up to the first that fails is one of the possible interruptions. -/
theorem interrupted_runSteps (steps : List SaveStep) (t : FileTree) :
    ∃ done, Interrupted (steps.map SaveStep.step) t done (runSteps steps t).2 ∧
      ((runSteps steps t).1 = .ok () → done = steps.map SaveStep.step) := by
  induction steps generalizing t with
  | nil => exact ⟨[], .finished, fun _ => rfl⟩
  | cons s steps ih =>
    unfold runSteps
    cases hrun : s.step.run t with
    | error e => exact ⟨[], .cut (.untouched s.step), nofun⟩
    | ok t₁ =>
      obtain ⟨done, hrest, hdone⟩ := ih t₁
      refine ⟨s.step :: done, .made hrun hrest, ?_⟩
      intro hok
      rw [hdone hok]
      rfl

/-- Steps that were all made are followed by what has become of those behind them. -/
theorem interrupted_append {steps : List SaveStep} {more done : List FileStep} {t₁ : FileTree}
    (hrun : runSteps steps t = (.ok (), t₁)) (h : Interrupted more t₁ done u) :
    Interrupted (steps.map SaveStep.step ++ more) t (steps.map SaveStep.step ++ done) u := by
  induction steps generalizing t with
  | nil =>
    cases hrun
    exact h
  | cons s steps ih =>
    unfold runSteps at hrun
    cases hstep : s.step.run t with
    | error e =>
      rw [hstep] at hrun
      cases hrun
    | ok t' =>
      rw [hstep] at hrun
      exact .made hstep (ih hrun)

theorem discarded_discard (p q : Path) (t : FileTree) :
    Discarded [p, q] t (discard q (discard p t)) := by
  have hone : ∀ (r : Path) (rest : List Path) (t u : FileTree), Discarded rest (discard r t) u →
      Discarded (r :: rest) t u := by
    intro r rest t u h
    unfold discard at h
    cases hr : t.remove r with
    | error e =>
      rw [hr] at h
      exact .kept h
    | ok t₁ =>
      rw [hr] at h
      exact .removed hr h
  exact hone p [q] t _ (hone q [] _ _ .nil)

/-- A save that fails to prepare its files reports that failure and tidies up. -/
theorem save_of_stage_error {failure : SaveError} {t₁ : FileTree}
    (h : runSteps (files.stageSteps createdAt g) t = (.error failure, t₁)) :
    (files.save createdAt g t).1 = .error failure ∧
      AfterSave files createdAt g t false (files.save createdAt g t).2 := by
  obtain ⟨done, hstage, -⟩ := interrupted_runSteps (files.stageSteps createdAt g) t
  unfold save
  rw [h] at hstage ⊢
  exact ⟨rfl, .tidied hstage (discarded_discard _ _ t₁)⟩

/-- A save leaves what an interrupted one can leave. -/
theorem afterSave_save (files : TraceFiles) (createdAt : UInt64) (g : Graph) (t : FileTree) :
    ∃ moved, AfterSave files createdAt g t moved (files.save createdAt g t).2 ∧
      ((files.save createdAt g t).1 = .ok () → moved = true) := by
  cases hstage : runSteps (files.stageSteps createdAt g) t with
  | mk result t₁ =>
    cases result with
    | error failure =>
      obtain ⟨herror, hafter⟩ := save_of_stage_error hstage
      refine ⟨false, hafter, ?_⟩
      intro hok
      rw [herror] at hok
      cases hok
    | ok _ =>
      have hsave : files.save createdAt g t = runSteps files.commitSteps t₁ := by
        unfold save
        rw [hstage]
      obtain ⟨done, hcommit, hdone⟩ := interrupted_runSteps files.commitSteps t₁
      have hall := interrupted_append hstage hcommit
      rw [← List.map_append] at hall
      rw [hsave]
      refine ⟨_, .stopped hall, fun hok => decide_eq_true ?_⟩
      rw [hdone hok]
      simp [commitSteps]

/-- Where a directory stands in the place of a prepared file, the files are not prepared. -/
theorem stage_error_of_directory (hs : files.Separate)
    (h : t.get (staging files.nodes) = .ok .directory ∨
      t.get (staging files.metadata) = .ok .directory) :
    ∃ failure t₁, runSteps (files.stageSteps createdAt g) t = (.error failure, t₁) := by
  have hoccupied : ∀ {t u : FileTree} {f : TraceFile} {content : Bytes},
      files.contents t f = some .directory → t.write (files.path f) content ≠ .ok u := by
    intro t u f content hdir hwrite
    obtain ⟨place, hplace, hfree, -⟩ := (FileTree.write_eq_ok_iff (hs.named f)).1 hwrite
    refine hfree ?_
    rw [← FileTree.at?_of_resolve hplace]
    exact hdir
  unfold stageSteps
  dsimp only
  unfold runSteps
  dsimp only [FileStep.run]
  cases hnodes : t.write (staging files.nodes) (nodesContent g) with
  | error e => exact ⟨_, _, rfl⟩
  | ok t₁ =>
    rcases h with h | h
    · exact absurd hnodes (hoccupied (f := .stagedNodes) (FileTree.at?_eq_some_iff_get.2 h))
    · have hc := contents_write hs (f := .stagedNodes) hnodes
      have hdir : files.contents t₁ .stagedMetadata = some .directory := by
        rw [hc, Function.update_of_ne (by decide)]
        exact FileTree.at?_eq_some_iff_get.2 h
      dsimp only
      unfold runSteps
      dsimp only [FileStep.run]
      cases hmetadata : t₁.write (staging files.metadata) (metadataContent createdAt g) with
      | error e => exact ⟨_, _, rfl⟩
      | ok t₂ => exact absurd hmetadata (hoccupied (f := .stagedMetadata) hdir)

/-- At every moment of a save, and after it, what is loaded is the old graph if the node file has
not been replaced, and the new one if it has. A save that cannot write its files keeps the old
graph. -/
theorem load_afterSave (dir : Path) (name : String) (createdAt : UInt64) {lookup : Lookup}
    {t : FileTree} {old new : Graph} (hold : (TraceFiles.of dir name).load lookup t = .ok old)
    (hindexed : new.Indexed) (hwell : ∀ node ∈ new.nodes, node.WellFormed lookup) :
    let files := TraceFiles.of dir name
    let saved := files.save createdAt new t
    (∀ u, AfterSave files createdAt new t false u → files.load lookup u = .ok old) ∧
    (∀ u, AfterSave files createdAt new t true u →
      ∃ g, files.load lookup u = .ok g ∧ new.Same g) ∧
    (∃ moved, AfterSave files createdAt new t moved saved.2 ∧ (saved.1 = .ok () → moved = true)) ∧
    (∀ failure t₁, runSteps (files.stageSteps createdAt new) t = (.error failure, t₁) →
      saved.1 = .error failure ∧ files.load lookup saved.2 = .ok old) ∧
    (t.get (staging files.nodes) = .ok .directory ∨
        t.get (staging files.metadata) = .ok .directory →
      ∃ failure, saved.1 = .error failure ∧ files.load lookup saved.2 = .ok old) := by
  intro files saved
  have hs : files.Separate := separate_of dir name
  have hstage : ∀ failure t₁, runSteps (files.stageSteps createdAt new) t = (.error failure, t₁) →
      saved.1 = .error failure ∧ files.load lookup saved.2 = .ok old := by
    intro failure t₁ h
    obtain ⟨herror, hafter⟩ := save_of_stage_error h
    exact ⟨herror, hafter.load hs hold hindexed hwell⟩
  refine ⟨fun u h => h.load hs hold hindexed hwell, ?_,
    afterSave_save files createdAt new t, hstage, ?_⟩
  · intro u h
    exact ⟨new.reread, h.load hs hold hindexed hwell, new.same_reread⟩
  · intro hdir
    obtain ⟨failure, t₁, herror⟩ := stage_error_of_directory hs hdir
    exact ⟨failure, hstage failure t₁ herror⟩

/-- A save of one node over the saved empty graph, cut short after three bytes. -/
theorem load_afterSave_threeBytes :
    let files := TraceFiles.of ⟨""⟩ "t"
    let t := (FileTree.empty.set ["t.nodes"] (.file (nodesContent .empty))).set ["t.nodes.meta"]
      (.file (metadataContent 7 .empty))
    let new : Graph := ⟨[.external 0 {} 30464]⟩
    files.load (.failing "") t = .ok .empty ∧ new.Indexed ∧
      (∀ node ∈ new.nodes, node.WellFormed (.failing "")) ∧
      ∃ u, t.write (staging files.nodes) ((nodesContent new).take 3) = .ok u ∧
        files.load (.failing "") u = .ok .empty := by
  intro files t new
  have hold : files.load (.failing "") t = .ok .empty :=
    load_written (g := .empty) nofun (by decide) nofun 7 (by decide) (.inr (by decide))
  have hindexed : new.Indexed := by
    intro i hi
    obtain rfl := Nat.lt_one_iff.1 hi
    rfl
  have hwell : ∀ node ∈ new.nodes, node.WellFormed (.failing "") := by
    intro node hnode
    rw [List.mem_singleton.1 hnode]
    exact .of_external rfl (by decide)
  obtain ⟨hbefore, -⟩ := load_afterSave ⟨""⟩ "t" 8 hold hindexed hwell
  have hok : (t.write (staging files.nodes) ((nodesContent new).take 3)).toBool = true := by decide
  cases hwrite : t.write (staging files.nodes) ((nodesContent new).take 3) with
  | error e =>
    rw [hwrite] at hok
    cases hok
  | ok u => exact ⟨hold, hindexed, hwell, u, rfl, hbefore u (.stopped (.cut (.partly 3 hwrite)))⟩

end TraceFiles

end TraceGraph
