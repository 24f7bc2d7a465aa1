import TraceGraph.Disassembly.DiskStore
import TraceGraph.FileTree
import TraceGraph.Log

/-!
# The library that keeps the store

Between two runs the values of a disk store are kept by a database library. What the library writes
into the directory of the store, and how, is its own affair: nothing here looks into its files. So
the library is a parameter, `StoreLibrary`, with the three operations that the program asks of it:
to open a database in a directory, to open a tree of keys in the database, and to close both. Each
of them may change the files and may log, and the first two may fail, for reasons that the library
words itself.

`StoreLibrary.openStore` is the program's part. It opens the tree of the instructions and reports
what fails: the database with its directory, the tree without it. A database whose tree cannot be
opened is closed again.

What the program relies on is said where it is used (`StoreLibrary.Confined`): a library makes the
missing directories on the way to its directory and otherwise keeps to the names below it that it
owns.

`StoreLibrary.detached` is the plainest library there is. It keeps its values elsewhere and leaves
nothing on the disk but one directory for them.
-/

namespace TraceGraph

/-- What a database library does when it is asked to. The operations on a database are given its
directory, and return the tree of files that they leave and what they log. -/
structure StoreLibrary where
  openDatabase : Path → FileTree → Except String Unit × FileTree × List LogRecord
  /-- Opens the tree with a name in an open database. -/
  openTree : Path → String → FileTree → Except String ValueReader × FileTree × List LogRecord
  /-- Closes an open database. What is logged while values are read counts as logged here. -/
  close : Path → FileTree → FileTree × List LogRecord
  /-- Whether the names lead from the directory of a database to something of the library. -/
  owns : List String → Bool

/-- Why there is no store. -/
inductive StoreError where
  | database (dir : Path) (reason : String)
  | tree (reason : String)
deriving DecidableEq, Repr

namespace StoreError

def message : StoreError → String
  | .database dir reason => s!"Failed to open disassembly store {dir.text}: {reason}"
  | .tree reason => reason

end StoreError

namespace StoreLibrary

/-- The name of the tree in which the instructions are. -/
def instructionTree : String := "blocks"

/-- Opens the store in a directory. -/
def openStore (library : StoreLibrary) (dir : Path) (t : FileTree) :
    Except StoreError ValueReader × FileTree × List LogRecord :=
  match library.openDatabase dir t with
  | (.error reason, t, log) => (.error (.database dir reason), t, log)
  | (.ok (), t, log) =>
    match library.openTree dir instructionTree t with
    | (.ok read, t, opening) => (.ok read, t, log ++ opening)
    | (.error reason, t, opening) =>
      let (t, closing) := library.close dir t
      (.error (.tree reason), t, log ++ opening ++ closing)

/-! ## A library that keeps nothing on the disk -/

/-- The directory that a database makes for itself. -/
def blobDirectory (dir : Path) : Path := dir.join "blobs"

/-- The complaint of a library about a file that it cannot work with. -/
def fileError (e : OsError) : String := "IO error: " ++ e.message

/-- A library whose values do not depend on what is in its directory, only on where that is. -/
def detached (values : Place → FiniteMap UInt64 Bytes) : StoreLibrary where
  openDatabase dir t :=
    if t.contains (blobDirectory dir) then (.ok (), t, [])
    else
      let (result, t) := t.makeDirectories (blobDirectory dir)
      (result.mapError fileError, t, [])
  openTree dir _ t :=
    match t.resolve (blobDirectory dir) with
    | .error e => (.error (fileError e), t, [])
    | .ok place => (.ok (DiskStore.mk (values place)).reader, t, [])
  close _ t := (t, [])
  owns names := names = ["blobs"]

end StoreLibrary

end TraceGraph
