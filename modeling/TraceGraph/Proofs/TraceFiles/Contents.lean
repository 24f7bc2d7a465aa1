import Mathlib.Logic.Function.Basic
import TraceGraph.Proofs.FileTree.Sibling
import TraceGraph.TraceFiles.Save

/-!
# The four files of a trace

Beside the two files of a trace stand those that are prepared for their places, so a save
works with four paths. They consist of one common text and four ends (`exists_path_of`), and
paths that differ in such ends never lead to one place. That is the condition under which
all of the saving is analysed:

> `Separate`: the four paths are those of files and never lead to one place.

It holds for every trace in every directory (`separate_of`), so nothing is assumed of names
here.

With separate paths a tree is for a save no more than the entries at the four ends. They are
the function `TraceFiles.contents`, and each operation on one of the files is an update of
it at one or two arguments (`contents_write`, `contents_remove`, `contents_removeIfPresent`,
`contents_rename`). What a sequence of steps does to the files can then be computed by
`simp`, with no path and no place left in the goals. What happens elsewhere in the tree is
said by `Touched` and not here.
-/

namespace TraceGraph

/-- One of the files that a save works with. -/
inductive TraceFile where
  | nodes
  | metadata
  | stagedNodes
  | stagedMetadata
deriving DecidableEq

namespace TraceFile

/-- What a file's path has behind the name of the trace. -/
def ending : TraceFile → String
  | .nodes => ".nodes"
  | .metadata => ".nodes.meta"
  | .stagedNodes => ".nodes.tmp"
  | .stagedMetadata => ".nodes.meta.tmp"

/-- No end of a file has a slash in it or could be taken for a dot or two. -/
theorem isEnd_ending (f : TraceFile) : Path.IsEnd f.ending := by
  cases f with
  | nodes => decide
  | metadata => decide
  | stagedNodes => decide
  | stagedMetadata => decide

/-- The four ends are different. -/
theorem ending_injective {f f' : TraceFile} (h : f.ending = f'.ending) : f = f' := by
  have hlist := congrArg String.toList h
  cases f with
  | nodes => cases f' <;> first | rfl | exact absurd hlist (by decide)
  | metadata => cases f' <;> first | rfl | exact absurd hlist (by decide)
  | stagedNodes => cases f' <;> first | rfl | exact absurd hlist (by decide)
  | stagedMetadata => cases f' <;> first | rfl | exact absurd hlist (by decide)

end TraceFile

namespace TraceFiles

/-- The path of each file. -/
def path (files : TraceFiles) : TraceFile → Path
  | .nodes => files.nodes
  | .metadata => files.metadata
  | .stagedNodes => staging files.nodes
  | .stagedMetadata => staging files.metadata

/-- The four paths are those of files and never lead to one place. -/
structure Separate (files : TraceFiles) : Prop where
  apart : ∀ f f', f ≠ f' → (files.path f).Apart (files.path f')
  named : ∀ f, (files.path f).endsInSlash = false

/-- The paths of the files of a trace are one text with the four ends behind it. -/
theorem exists_path_of (dir : Path) (name : String) :
    ∃ text, ∀ f, (TraceFiles.of dir name).path f = ⟨text ++ f.ending⟩ := by
  obtain ⟨text, hjoin⟩ := Path.join_append dir name
  have hnodes := hjoin ".nodes" (TraceFile.isEnd_ending .nodes)
  have hmetadata := hjoin ".nodes.meta" (TraceFile.isEnd_ending .metadata)
  refine ⟨text, ?_⟩
  intro f
  cases f with
  | nodes => exact hnodes
  | metadata => exact hmetadata
  | stagedNodes =>
    show staging (dir.join (name ++ ".nodes")) = _
    rw [hnodes]
    unfold staging Path.append
    rw [String.append_assoc]
    rfl
  | stagedMetadata =>
    show staging (dir.join (name ++ ".nodes.meta")) = _
    rw [hmetadata]
    unfold staging Path.append
    rw [String.append_assoc]
    rfl

/-- The files of a trace are separate, whatever the directory and the name are. -/
theorem separate_of (dir : Path) (name : String) : (TraceFiles.of dir name).Separate := by
  obtain ⟨text, hpath⟩ := exists_path_of dir name
  refine ⟨?_, ?_⟩
  · intro f f' hne
    rw [hpath, hpath]
    exact Path.apart_of_ne f.isEnd_ending f'.isEnd_ending
      fun h => hne (TraceFile.ending_injective h)
  · intro f
    rw [hpath]
    exact Path.endsInSlash_append f.isEnd_ending

/-- What is at the places of the four files. -/
def contents (files : TraceFiles) (t : FileTree) (f : TraceFile) : Option Entry :=
  t.at? (files.path f)

/-- The four files can be written: their directories are there, and none of them is one. -/
def Ready (files : TraceFiles) (t : FileTree) : Prop := ∀ f, t.Vacant (files.path f)

section

variable {files : TraceFiles} {t u : FileTree}

theorem Ready.of_touched {paths : List Path} (h : files.Ready t) (ht : t.Touched u paths) :
    files.Ready u := fun f => ht.vacant (h f)

/-- A change through the path of one file is an update of the contents at that file. -/
theorem contents_of_touched (hs : files.Separate) {f : TraceFile}
    (h : t.Touched u [files.path f]) :
    files.contents u = Function.update (files.contents t) f (u.at? (files.path f)) := by
  funext f'
  by_cases hf : f' = f
  · subst hf
    rw [Function.update_self]
    rfl
  · rw [Function.update_of_ne hf]
    refine h.at?_eq fun p hp place => ?_
    rw [List.mem_singleton.1 hp]
    exact hs.apart f f' (Ne.symm hf) t place

theorem contents_write (hs : files.Separate) {f : TraceFile} {content : Bytes}
    (h : t.write (files.path f) content = .ok u) :
    files.contents u = Function.update (files.contents t) f (some (.file content)) := by
  obtain ⟨hself, htouched⟩ := FileTree.touched_write (hs.named f) h
  rw [contents_of_touched hs htouched, hself]

theorem contents_remove (hs : files.Separate) {f : TraceFile}
    (h : t.remove (files.path f) = .ok u) :
    files.contents u = Function.update (files.contents t) f none := by
  obtain ⟨hself, htouched⟩ := FileTree.touched_remove h
  rw [contents_of_touched hs htouched, hself]

theorem contents_removeIfPresent (hs : files.Separate) {f : TraceFile}
    (h : t.removeIfPresent (files.path f) = .ok u) :
    files.contents u = Function.update (files.contents t) f none := by
  obtain ⟨hself, htouched⟩ := FileTree.touched_removeIfPresent h
  rw [contents_of_touched hs htouched, hself]

/-- A move empties the source and fills the destination. The two are different files, since
a file that is moved onto itself stays. -/
theorem contents_rename (hs : files.Separate) {f f' : TraceFile} (hne : f ≠ f')
    (h : t.rename (files.path f) (files.path f') = .ok u) :
    files.contents u =
      Function.update (Function.update (files.contents t) f none) f' (files.contents t f) := by
  obtain ⟨⟨content, hbefore, hafter⟩, htouched⟩ := FileTree.touched_rename h
  funext g
  -- the destination of the move, its source, and every other file
  by_cases hg : g = f'
  · subst hg
    rw [Function.update_self]
    exact hafter.trans hbefore.symm
  · rw [Function.update_of_ne hg]
    by_cases hg' : g = f
    · subst hg'
      rw [Function.update_self]
      exact FileTree.at?_rename_source h (hs.apart g f' hne)
    · rw [Function.update_of_ne hg']
      refine htouched.at?_eq fun p hp place => ?_
      rcases List.mem_cons.1 hp with hp | hp
      · rw [hp]
        exact hs.apart f g (Ne.symm hg') t place
      · rw [List.mem_singleton.1 hp]
        exact hs.apart f' g (Ne.symm hg) t place

end

end TraceFiles

end TraceGraph
