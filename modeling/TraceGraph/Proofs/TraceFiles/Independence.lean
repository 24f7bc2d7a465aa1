import Mathlib.Logic.Relation
import TraceGraph.Proofs.FileTree.Directory
import TraceGraph.Proofs.TraceFiles.Tidiness

/-!
# Traces side by side

The traces of a directory are told apart by the names of their files, and a name may itself
end like one of these files. No end of a file is the end of the end of another one
(`TraceFile.eq_of_suffix`), and this is enough: files of traces of different names have
different names themselves (`TraceFile.append_ending_ne`) and so are in different places.

The rest is a frame argument. Every operation on a trace touches the four files of the trace
only.

> `Operated files t u`: the tree `u` is left by an operation on the trace, which has ended
> or was
> interrupted.

The relation covers saves, interrupted saves, removals and interrupted ones. The step lemma
is `Operated.touched`, and by induction every run of operations touches no other file
(`touched_run`). A load of the other trace looks up two paths (`load_congr`), and neither
what is found there nor the reason why nothing is has changed (`get_path_of_touched`).

Removing a trace is about its own files. It succeeds unless a directory stands in its way
(`exists_invalidate`), leaves none of the four and can be repeated
(`invalidate_of_missing`).

The main result is `traces_independent`.
-/

namespace TraceGraph

open FileTree

variable {t u : FileTree}

/-! ## What a step touches -/

namespace FileStep

/-- The paths whose ends a step can change. -/
def paths : FileStep → List Path
  | .write path _ => [path]
  | .removeIfPresent path => [path]
  | .rename source destination => [source, destination]

/-- A step that is made touches its own paths. -/
theorem touched_run {step : FileStep} (hnamed : ∀ p ∈ step.paths, p.endsInSlash = false)
    (h : step.run t = .ok u) : t.Touched u step.paths := by
  cases step with
  | write path content => exact (touched_write (hnamed path (List.mem_cons_self ..)) h).2
  | removeIfPresent path => exact (touched_removeIfPresent h).2
  | rename source destination => exact (touched_rename h).2

/-- A step that is cut short touches no more: a part of a file is written where the file
would be. -/
theorem CutShort.touched {step : FileStep} (hnamed : ∀ p ∈ step.paths, p.endsInSlash = false)
    (h : step.CutShort t u) : t.Touched u step.paths := by
  cases h with
  | untouched => exact .refl t step.paths
  | @partly path content _ length hwrite =>
    exact (touched_write (hnamed path (List.mem_cons_self ..)) hwrite).2

end FileStep

namespace FileTree

/-- The program asks for a file; a directory at the same path does not count. -/
theorem isFile_iff {p : Path} : t.isFile p = true ↔ ∃ content, t.at? p = some (.file content) := by
  simp only [at?_eq_some_iff_get]
  unfold isFile
  cases t.get p with
  | error e => exact ⟨nofun, nofun⟩
  | ok entry =>
    cases entry with
    | file content => exact ⟨fun _ => ⟨content, rfl⟩, fun _ => rfl⟩
    | directory => exact ⟨nofun, nofun⟩

/-- Changes through some paths one after the other are changes through these paths. -/
theorem Touched.trans_self {v : FileTree} {paths : List Path} (h : t.Touched u paths)
    (h' : u.Touched v paths) : t.Touched v paths :=
  (h.trans h').mono (List.append_subset.2 ⟨List.Subset.refl _, List.Subset.refl _⟩)

/-- Nothing is changed at a place that none of the paths leads to. -/
theorem Touched.lookup?_eq {paths : List Path} {place : Place} (h : t.Touched u paths)
    (hplace : ∀ p ∈ paths, t.resolve p ≠ .ok place) : u.lookup? place = t.lookup? place := by
  obtain ⟨places, hchanged, hplaces⟩ := h
  refine hchanged.others place ?_
  intro hmem
  obtain ⟨p, hp, hresolve⟩ := hplaces place hmem
  exact hplace p hp hresolve

theorem Touched.workingDirectory {paths : List Path} (h : t.Touched u paths) :
    u.workingDirectory = t.workingDirectory := by
  obtain ⟨places, hchanged, -⟩ := h
  exact hchanged.workingDirectory

end FileTree

/-- An interrupted sequence of steps touches the paths of its steps. -/
theorem Interrupted.touched {steps done : List FileStep} {paths : List Path}
    (hnamed : ∀ p ∈ paths, p.endsInSlash = false) (hsteps : ∀ step ∈ steps, step.paths ⊆ paths)
    (h : Interrupted steps t done u) : t.Touched u paths := by
  induction h with
  | finished => exact .refl _ paths
  | @cut step steps t u hcut =>
    have hsub := hsteps step (List.mem_cons_self ..)
    exact (hcut.touched fun p hp => hnamed p (hsub hp)).mono hsub
  | @made step steps done t t₁ u hrun rest ih =>
    have hsub := hsteps step (List.mem_cons_self ..)
    have hstep := (FileStep.touched_run (fun p hp => hnamed p (hsub hp)) hrun).mono hsub
    exact hstep.trans_self (ih fun step' hmem => hsteps step' (List.mem_cons_of_mem _ hmem))

/-- Removing files touches the paths of these files. -/
theorem Discarded.touched {discarded paths : List Path} (hsub : discarded ⊆ paths)
    (h : Discarded discarded t u) : t.Touched u paths := by
  induction h with
  | nil => exact .refl _ paths
  | kept rest ih => exact ih (List.cons_subset.1 hsub).2
  | @removed p discarded t t₁ u hremove rest ih =>
    obtain ⟨hp, hdiscarded⟩ := List.cons_subset.1 hsub
    have hfirst := (touched_remove hremove).2.mono (List.cons_subset.2 ⟨hp, List.nil_subset _⟩)
    exact hfirst.trans_self (ih hdiscarded)

/-! ## Names of files -/

namespace TraceFile

def all : List TraceFile := [.nodes, .metadata, .stagedNodes, .stagedMetadata]

theorem mem_all (f : TraceFile) : f ∈ all := by
  cases f with
  | nodes => decide
  | metadata => decide
  | stagedNodes => decide
  | stagedMetadata => decide

/-- No end of a file is the end of the end of another file. -/
theorem eq_of_suffix {f f' : TraceFile} (h : f.ending.toList <:+ f'.ending.toList) : f = f' := by
  cases f with
  | nodes => cases f' <;> first | rfl | exact absurd h (by decide)
  | metadata => cases f' <;> first | rfl | exact absurd h (by decide)
  | stagedNodes => cases f' <;> first | rfl | exact absurd h (by decide)
  | stagedMetadata => cases f' <;> first | rfl | exact absurd h (by decide)

/-- A file of a trace is no file of a trace of another name. -/
theorem append_ending_ne {name name' : String} (hne : name ≠ name') (f f' : TraceFile) :
    name ++ f.ending ≠ name' ++ f'.ending := by
  intro h
  have hlist := congrArg String.toList h
  rw [String.toList_append, String.toList_append] at hlist
  have hend : f.ending.toList <:+ name'.toList ++ f'.ending.toList :=
    hlist ▸ List.suffix_append _ _
  -- both ends end the same text, so one of them ends the other
  have hsame : f = f' := by
    rcases List.suffix_or_suffix_of_suffix hend (List.suffix_append _ _) with hsuffix | hsuffix
    · exact eq_of_suffix hsuffix
    · exact (eq_of_suffix hsuffix).symm
  subst hsame
  exact hne (String.toList_injective (List.append_cancel_right hlist))

end TraceFile

namespace TraceFiles

variable {files : TraceFiles} {dir : Path} {name name' : String}

/-- The paths of the four files. -/
def paths (files : TraceFiles) : List Path := TraceFile.all.map files.path

theorem path_mem_paths (f : TraceFile) : files.path f ∈ files.paths :=
  List.mem_map_of_mem f.mem_all

theorem pair_subset_paths (f f' : TraceFile) : [files.path f, files.path f'] ⊆ files.paths :=
  List.cons_subset.2
    ⟨path_mem_paths f, List.cons_subset.2 ⟨path_mem_paths f', List.nil_subset _⟩⟩

/-- Each of the four paths is that of a name in the directory, the prepared files included.
-/
theorem path_of (dir : Path) (name : String) (f : TraceFile) :
    (TraceFiles.of dir name).path f = dir.join (name ++ f.ending) := by
  obtain ⟨text, hjoin⟩ := Path.join_append dir name
  have hstaging : ∀ ending, Path.IsEnd ending → Path.IsEnd (ending ++ ".tmp") →
      staging (dir.join (name ++ ending)) = dir.join (name ++ (ending ++ ".tmp")) := by
    intro ending h h'
    rw [hjoin ending h, hjoin _ h', ← String.append_assoc]
    rfl
  cases f with
  | nodes => rfl
  | metadata => rfl
  | stagedNodes => exact hstaging ".nodes" (by decide) (by decide)
  | stagedMetadata => exact hstaging ".nodes.meta" (by decide) (by decide)

theorem isName_append_ending (hname : '/' ∉ name.toList) (f : TraceFile) :
    Path.IsName (name ++ f.ending) :=
  Path.isName_append hname f.isEnd_ending

/-! ## What an operation touches -/

/-- A tree `u` that is left by an operation on a trace: a save or an invalidation that has ended, or
one that was interrupted. Nothing is changed where a trace is only looked for or read. -/
inductive Operated (files : TraceFiles) (t : FileTree) : FileTree → Prop where
  | save (createdAt : UInt64) (g : Graph) : Operated files t (files.save createdAt g t).2
  | saveCutShort {createdAt : UInt64} {g : Graph} {moved : Bool} {u : FileTree}
      (h : AfterSave files createdAt g t moved u) : Operated files t u
  | invalidate : Operated files t (files.invalidate t).2
  | invalidateCutShort {u : FileTree} (h : Discarded
      [files.nodes, staging files.nodes, files.metadata, staging files.metadata] t u) :
      Operated files t u
  | read : Operated files t t

/-- A save has no step at any other path. -/
theorem paths_subset_of_mem_saveSteps {createdAt : UInt64} {g : Graph} {step : FileStep}
    (h : step ∈ saveSteps files createdAt g) : step.paths ⊆ files.paths := by
  obtain ⟨k, hk⟩ := List.mem_iff_getElem?.1 h
  have hpath {f : TraceFile} : [files.path f] ⊆ files.paths :=
    List.cons_subset.2 ⟨path_mem_paths f, List.nil_subset _⟩
  rcases saveSteps_cases hk with ⟨-, rfl⟩ | ⟨-, rfl⟩ | ⟨-, rfl⟩ | ⟨-, rfl⟩ | ⟨-, rfl⟩
  · exact hpath
  · exact hpath
  · exact hpath
  · exact pair_subset_paths .stagedNodes .nodes
  · exact pair_subset_paths .stagedMetadata .metadata

theorem Separate.named_of_mem (hs : files.Separate) : ∀ p ∈ files.paths, p.endsInSlash = false := by
  intro p hp
  obtain ⟨f, -, rfl⟩ := List.mem_map.1 hp
  exact hs.named f

/-- A save touches no other file, at whatever moment it ends. -/
theorem AfterSave.touched {createdAt : UInt64} {g : Graph} {moved : Bool} (hs : files.Separate)
    (h : AfterSave files createdAt g t moved u) : t.Touched u files.paths := by
  cases h with
  | stopped hsteps =>
    exact hsteps.touched hs.named_of_mem fun step hmem => paths_subset_of_mem_saveSteps hmem
  | tidied hstage rest =>
    have hsteps : ∀ step ∈ (files.stageSteps createdAt g).map SaveStep.step,
        step ∈ saveSteps files createdAt g := by
      intro step hmem
      unfold saveSteps
      rw [List.map_append]
      exact List.mem_append_left _ hmem
    have hstaged := hstage.touched hs.named_of_mem fun step hmem =>
      paths_subset_of_mem_saveSteps (hsteps step hmem)
    exact hstaged.trans_self (rest.touched (pair_subset_paths .stagedNodes .stagedMetadata))

/-- Removing a file and the prepared one touches these two, whatever is removed first. -/
theorem touched_removeBoth (p : Path) (t : FileTree) :
    t.Touched (removeBoth p t).2 [p, staging p] := by
  unfold removeBoth
  cases hremove : t.removeIfPresent p with
  | error e => exact .refl t _
  | ok t₁ =>
    have hfirst := (touched_removeIfPresent hremove).2
    dsimp only
    split
    next =>
      cases hstaged : t₁.remove (staging p) with
      | error e => exact hfirst.mono (List.cons_subset_cons _ (List.nil_subset _))
      | ok t₂ => exact hfirst.trans (touched_remove hstaged).2
    next => exact hfirst.mono (List.cons_subset_cons _ (List.nil_subset _))

/-- A removal that fails on the way has touched no other file either. -/
theorem touched_invalidate (files : TraceFiles) (t : FileTree) :
    t.Touched (files.invalidate t).2 files.paths := by
  have hnodes := (touched_removeBoth files.nodes t).mono (pair_subset_paths .nodes .stagedNodes)
  unfold invalidate
  cases h : removeBoth files.nodes t with
  | mk result t₁ =>
    rw [h] at hnodes
    cases result with
    | error e => exact hnodes
    | ok _ =>
      exact hnodes.trans_self ((touched_removeBoth files.metadata t₁).mono
        (pair_subset_paths .metadata .stagedMetadata))

/-- However an operation on a trace ends, it has touched the files of the trace at most. -/
theorem Operated.touched (hs : files.Separate) (h : files.Operated t u) :
    t.Touched u files.paths := by
  cases h with
  | save createdAt g =>
    obtain ⟨moved, hafter, -⟩ := afterSave_save files createdAt g t
    exact hafter.touched hs
  | saveCutShort hafter => exact hafter.touched hs
  | invalidate => exact touched_invalidate files t
  | invalidateCutShort hdiscarded =>
    exact hdiscarded.touched (List.append_subset.2
      ⟨pair_subset_paths .nodes .stagedNodes, pair_subset_paths .metadata .stagedMetadata⟩)
  | read => exact .refl t _

/-- Operations one after the other touch no more than each of them. -/
theorem touched_run (hs : files.Separate) (h : Relation.ReflTransGen files.Operated t u) :
    t.Touched u files.paths := by
  induction h with
  | refl => exact .refl t _
  | tail _ hstep ih => exact ih.trans_self (hstep.touched hs)

/-! ## What another trace sees -/

/-- A load looks at nothing but what is at the ends of two paths. -/
theorem load_congr (hnodes : u.get files.nodes = t.get files.nodes)
    (hmetadata : u.get files.metadata = t.get files.metadata) (lookup : Lookup) :
    files.load lookup u = files.load lookup t := by
  unfold load loadLogged checkMetadata readNodes readMetadata FileTree.contains FileTree.read
  rw [hnodes, hmetadata]

/-- Changes of one trace are not seen at the files of another one. -/
theorem get_path_of_touched (hname : '/' ∉ name.toList) (hname' : '/' ∉ name'.toList)
    (hne : name ≠ name') (h : t.Touched u (TraceFiles.of dir name).paths) (f : TraceFile) :
    u.get ((TraceFiles.of dir name').path f) = t.get ((TraceFiles.of dir name').path f) := by
  have hpaths : (TraceFiles.of dir name).paths =
      (TraceFile.all.map fun f => name ++ f.ending).map dir.join := by
    unfold paths
    rw [List.map_map]
    exact List.map_congr_left fun f _ => path_of dir name f
  rw [hpaths] at h
  rw [path_of]
  refine h.get_join_eq ?_ (isName_append_ending hname' f) ?_
  · intro n hn
    obtain ⟨f', -, rfl⟩ := List.mem_map.1 hn
    exact isName_append_ending hname f'
  · intro hmem
    obtain ⟨f', -, heq⟩ := List.mem_map.1 hmem
    exact TraceFile.append_ending_ne hne f' f heq

/-! ## Removing a trace -/

/-- A file and the one that is prepared for its place are removed unless one of them is a
directory. -/
theorem exists_removeBoth (hs : files.Separate) (f f' : TraceFile) (hne : f' ≠ f)
    (hstaged : staging (files.path f) = files.path f')
    (h : files.contents t f ≠ some .directory) (h' : files.contents t f' ≠ some .directory) :
    ∃ u, removeBoth (files.path f) t = (.ok (), u) ∧
      files.contents u = Function.update (Function.update (files.contents t) f none) f' none := by
  unfold removeBoth
  rw [hstaged]
  cases hremove : t.removeIfPresent (files.path f) with
  | error e => exact absurd (removeIfPresent_eq_error_iff.1 ⟨e, hremove⟩) h
  | ok t₁ =>
    have hc := contents_removeIfPresent hs hremove
    dsimp only
    by_cases hfile : t₁.isFile (files.path f') = true
    · obtain ⟨content, hcontent⟩ := isFile_iff.1 hfile
      obtain ⟨t₂, hremove₂⟩ := remove_of_at? hcontent
      refine ⟨t₂, ?_, ?_⟩
      · rw [if_pos hfile, hremove₂]
      · rw [contents_remove hs hremove₂, hc]
    · -- neither a directory nor a file is there, so nothing is
      have hnone : files.contents t₁ f' = none := by
        cases hentry : files.contents t₁ f' with
        | none => rfl
        | some entry =>
          cases entry with
          | file content => exact absurd (isFile_iff.2 ⟨content, hentry⟩) hfile
          | directory =>
            rw [hc, Function.update_of_ne hne] at hentry
            exact absurd hentry h'
      refine ⟨t₁, if_neg hfile, ?_⟩
      rw [← hc, ← hnone, Function.update_eq_self]

/-- Removing what is not there changes nothing and is no error. -/
theorem removeBoth_of_missing {p : Path} (h : t.at? p = none) (hstaged : t.at? (staging p) = none) :
    removeBoth p t = (.ok (), t) := by
  have hpresent : t.removeIfPresent p = .ok t := by
    unfold FileTree.removeIfPresent
    rw [contains_eq_isSome, h]
    rfl
  have hfile : ¬t.isFile (staging p) = true := by
    intro hfile
    obtain ⟨content, hcontent⟩ := isFile_iff.1 hfile
    cases hstaged.symm.trans hcontent
  unfold removeBoth
  rw [hpresent]
  exact if_neg hfile

/-- All files of a trace are removed unless one of them is a directory. -/
theorem exists_invalidate (hs : files.Separate) (h : ∀ f, files.contents t f ≠ some .directory) :
    ∃ u, files.invalidate t = (.ok (), u) ∧ ∀ f, files.contents u f = none := by
  obtain ⟨t₁, hnodes, hc₁⟩ := exists_removeBoth hs .nodes .stagedNodes (by decide) rfl (h .nodes)
    (h .stagedNodes)
  have hkept : ∀ f, files.contents t₁ f ≠ some .directory := by
    intro f
    rw [hc₁]
    cases f with
    | nodes => simp
    | stagedNodes => simp
    | metadata => simpa using h .metadata
    | stagedMetadata => simpa using h .stagedMetadata
  -- the first half has left the metadata files as they were
  obtain ⟨t₂, hmetadata, hc₂⟩ := exists_removeBoth hs .metadata .stagedMetadata (by decide) rfl
    (hkept .metadata) (hkept .stagedMetadata)
  refine ⟨t₂, ?_, ?_⟩
  · have hfirst : removeBoth files.nodes t = (.ok (), t₁) := hnodes
    unfold invalidate
    rw [hfirst]
    exact hmetadata
  · intro f
    rw [hc₂, hc₁]
    cases f with
    | nodes => simp
    | stagedNodes => simp
    | metadata => simp
    | stagedMetadata => simp

/-- A trace that is not there can be removed again. -/
theorem invalidate_of_missing (h : ∀ f, files.contents t f = none) :
    files.invalidate t = (.ok (), t) := by
  have hnodes : removeBoth files.nodes t = (.ok (), t) :=
    removeBoth_of_missing (h .nodes) (h .stagedNodes)
  unfold invalidate
  rw [hnodes]
  exact removeBoth_of_missing (h .metadata) (h .stagedMetadata)

/-- Without a node file there is nothing to be loaded. -/
theorem load_of_no_nodes (h : files.contents t .nodes = none) (lookup : Lookup) :
    (∃ e, files.load lookup t = .error e) ∧ files.loadOrEmpty lookup t = .empty := by
  have herror : ∃ e, files.load lookup t = .error e := by
    rw [load_eq]
    unfold readNodes
    cases hget : t.get files.nodes with
    | error e => exact ⟨_, rfl⟩
    | ok entry => cases h.symm.trans (at?_eq_some_iff_get.2 hget)
  refine ⟨herror, ?_⟩
  obtain ⟨e, he⟩ := herror
  unfold loadOrEmpty
  rw [he]

/-! ## Two traces -/

/-- A file of a trace and a file of a trace of another name are not in the same place. -/
theorem path_ne_and_apart (hname : '/' ∉ name.toList) (hname' : '/' ∉ name'.toList)
    (hne : name ≠ name') (f f' : TraceFile) :
    (TraceFiles.of dir name).path f ≠ (TraceFiles.of dir name').path f' ∧
      ((TraceFiles.of dir name).path f).Apart ((TraceFiles.of dir name').path f') := by
  have hnames := TraceFile.append_ending_ne hne f f'
  have hf := isName_append_ending hname f
  have hf' := isName_append_ending hname' f'
  rw [path_of, path_of]
  exact ⟨Path.join_ne hf hf' hnames, apart_join hf hf' hnames⟩

/-- Traces of different names in a directory have no file in common. However the operations on one
of them end, they change nothing but its own four files, and the other is found and loaded as it was
before. A trace that is removed leaves none of its files, unless a directory stands in the place of
one of them, and can be removed again. -/
theorem traces_independent (dir : Path) {name name' : String} (hname : '/' ∉ name.toList)
    (hname' : '/' ∉ name'.toList) (hne : name ≠ name') :
    let files := TraceFiles.of dir name
    let other := TraceFiles.of dir name'
    (∀ f f', files.path f ≠ other.path f' ∧ (files.path f).Apart (other.path f')) ∧
    (∀ t u, Relation.ReflTransGen files.Operated t u →
      u.workingDirectory = t.workingDirectory ∧
      (∀ place, (∀ f, t.resolve (files.path f) ≠ .ok place) →
        u.lookup? place = t.lookup? place) ∧
      other.present u = other.present t ∧
      ∀ lookup, other.load lookup u = other.load lookup t ∧
        other.loadOrEmpty lookup u = other.loadOrEmpty lookup t) ∧
    ∀ t, (∀ f, t.at? (files.path f) ≠ some .directory) →
      ∃ u, files.invalidate t = (.ok (), u) ∧ (∀ f, u.at? (files.path f) = none) ∧
        files.present u = false ∧
        (∀ lookup, (∃ e, files.load lookup u = .error e) ∧ files.loadOrEmpty lookup u = .empty) ∧
        files.invalidate u = (.ok (), u) := by
  intro files other
  have hs : files.Separate := separate_of dir name
  refine ⟨?_, ?_, ?_⟩
  · intro f f'
    exact path_ne_and_apart hname hname' hne f f'
  · intro t u hrun
    have htouched := touched_run hs hrun
    have hget := get_path_of_touched hname hname' hne htouched
    have hload := load_congr (hget .nodes) (hget .metadata)
    refine ⟨htouched.workingDirectory, ?_, ?_, fun lookup => ⟨hload lookup, ?_⟩⟩
    · intro place hplace
      refine htouched.lookup?_eq ?_
      intro p hp
      obtain ⟨f, -, rfl⟩ := List.mem_map.1 hp
      exact hplace f
    · unfold present FileTree.contains
      rw [show u.get other.nodes = t.get other.nodes from hget .nodes]
    · unfold loadOrEmpty
      rw [hload lookup]
  · intro t hfree
    obtain ⟨u, hinvalidate, hmissing⟩ := exists_invalidate hs hfree
    refine ⟨u, hinvalidate, hmissing, ?_, load_of_no_nodes (hmissing .nodes),
      invalidate_of_missing hmissing⟩
    unfold present
    rw [contains_eq_isSome, show u.at? files.nodes = none from hmissing .nodes]
    rfl

/-- The node file of the one trace is named like a trace itself, and a trace of that name is saved
beside it. -/
theorem traces_independent_nested :
    let files := TraceFiles.of ⟨""⟩ "t"
    let other := TraceFiles.of ⟨""⟩ "t.nodes"
    let t := (FileTree.empty.set ["t.nodes.nodes"] (.file (nodesContent .empty))).set
      ["t.nodes.nodes.meta"] (.file (metadataContent 7 .empty))
    let saved := (files.save 8 ⟨[.external 0 {} 30464]⟩ t).2
    other.load (.failing "") (files.invalidate saved).2 = .ok .empty ∧
    ∃ u, files.invalidate t = (.ok (), u) ∧ files.present u = false := by
  intro files other t saved
  have hload : other.load (.failing "") t = .ok .empty :=
    load_written (g := .empty) nofun (by decide) nofun 7 (by decide) (.inr (by decide))
  have hrun : Relation.ReflTransGen files.Operated t (files.invalidate saved).2 :=
    .tail (.single (.save 8 _)) .invalidate
  have hname : '/' ∉ "t".toList := by decide
  have hname' : '/' ∉ "t.nodes".toList := by decide
  obtain ⟨-, hframe, hremoved⟩ := traces_independent ⟨""⟩ hname hname' (by decide)
  obtain ⟨-, -, -, hsame⟩ := hframe t _ hrun
  refine ⟨(hsame (.failing "")).1.trans hload, ?_⟩
  have hfree : ∀ f, t.at? (files.path f) ≠ some .directory := by
    intro f
    cases f with
    | nodes => decide
    | metadata => decide
    | stagedNodes => decide
    | stagedMetadata => decide
  obtain ⟨u, hinvalidate, -, hpresent, -⟩ := hremoved t hfree
  exact ⟨u, hinvalidate, hpresent⟩

end TraceFiles

end TraceGraph
