import TraceGraph.PrefixMap
import TraceGraph.Text.Utf8

/-!
# File trees

The directories and files below one root, as far as the library reads or writes them.

A tree is a map from places to entries, where a place is the list of names that lead to it
from the root. The names of a path are followed one by one (`walk`): a name has to be that
of a directory if another one follows it, two dots go back, and an empty name or a dot
stays. So the last name can be that of nothing, which is where a file is made.

What goes wrong on the way is reported as the operating system reports it (`OsError`), since
the texts of the reports are part of what the program prints. Before it follows a path every
operation refuses those that no tree has a place for: an empty path, one with a NUL in it
and one that is too long (`check`). A path that ends in a slash names a directory, so no
file can be written there (`target`).

Every operation that changes the tree changes the entry at one place or none, with two
exceptions: a rename changes two, and `makeDirectories` makes directories one by one and
leaves those that it made if it cannot go on. `lookup?_set` and `lookup?_erase` say what a
change does to all places.

There are no links, no permissions and no other processes. What of the tree is relevant to
the library is what is at each place and where relative paths start.
-/

namespace TraceGraph

/-- Why the operating system refuses an operation on a file. -/
inductive OsError where
  | noEntry
  | alreadyExists
  | noDevice
  | notDirectory
  | isDirectory
  | nameTooLong
  | notEmpty
  | nulInName
deriving DecidableEq, Repr

namespace OsError

/-- What the operating system says. -/
def message : OsError → String
  | .noEntry => "No such file or directory (os error 2)"
  | .alreadyExists => "File exists (os error 17)"
  | .noDevice => "No such device (os error 19)"
  | .notDirectory => "Not a directory (os error 20)"
  | .isDirectory => "Is a directory (os error 21)"
  | .nameTooLong => "File name too long (os error 36)"
  | .notEmpty => "Directory not empty (os error 39)"
  | .nulInName => "file name contained an unexpected NUL byte"

end OsError

/-- A path as it is written: names between slashes. -/
structure Path where
  text : String
deriving DecidableEq, Repr

namespace Path

/-- The parts of a text between slashes. -/
def splitSlashes : List Char → List (List Char)
  | [] => [[]]
  | c :: cs =>
    if c = '/' then [] :: splitSlashes cs
    else
      match splitSlashes cs with
      | [] => [[c]]
      | name :: names => (c :: name) :: names

/-- The names of a path in order. Two slashes in a row, or one at either end, have an empty name
between them. -/
def names (p : Path) : List String := (splitSlashes p.text.toList).map String.ofList

/-- Whether a path starts at the root. -/
def isAbsolute (p : Path) : Bool := p.text.toList.head? = some '/'

def endsInSlash (p : Path) : Bool := p.text.toList.getLast? = some '/'

/-- A path below a directory. An absolute one does not depend on the directory. -/
def join (dir : Path) (name : String) : Path :=
  if (Path.mk name).isAbsolute || dir.text.isEmpty then ⟨name⟩
  else if dir.endsInSlash then ⟨dir.text ++ name⟩
  else ⟨dir.text ++ "/" ++ name⟩

/-- The path with more text at its end. -/
def append (p : Path) (text : String) : Path := ⟨p.text ++ text⟩

end Path

/-- What is at a place in a tree. -/
inductive Entry where
  | file (content : Bytes)
  | directory
deriving DecidableEq

/-- A place in a tree: the names from the root down to it. -/
abbrev Place := List String

/-- The directories and files below a root. -/
structure FileTree where
  entries : PrefixMap String Entry := .empty
  /-- Where relative paths start. -/
  workingDirectory : Place := []

namespace FileTree

/-- A tree in which nothing is but the root. -/
def empty : FileTree := {}

/-- What is at a place; the root is always a directory. -/
def lookup? (t : FileTree) (place : Place) : Option Entry :=
  if place = [] then some .directory else t.entries.get? place

/-- The tree with an entry at a place. -/
def set (t : FileTree) (place : Place) (entry : Entry) : FileTree :=
  { t with entries := t.entries.set place entry }

/-- The tree with nothing at a place. -/
def erase (t : FileTree) (place : Place) : FileTree :=
  { t with entries := t.entries.erase place }

/-- An entry that is set is seen at its place and at no other. -/
theorem lookup?_set (t : FileTree) (place p : Place) (entry : Entry) (h : place ≠ []) :
    (t.set place entry).lookup? p = if p = place then some entry else t.lookup? p := by
  simp only [lookup?, set, PrefixMap.get?_set]
  split
  next hp => rw [if_neg (hp ▸ Ne.symm h)]
  next => rfl

/-- An entry that is erased is missed at its place and at no other. -/
theorem lookup?_erase (t : FileTree) (place p : Place) (h : place ≠ []) :
    (t.erase place).lookup? p = if p = place then none else t.lookup? p := by
  simp only [lookup?, erase, PrefixMap.get?_erase]
  split
  next hp => rw [if_neg (hp ▸ Ne.symm h)]
  next => rfl

/-- No name is longer than this many bytes. -/
def maxName : Nat := 255

/-- No path is as long as this many bytes. -/
def maxPath : Nat := 4096

/-- Follows names from a place. Every name but the last has to be that of a directory; the last can
be that of nothing. -/
def walk (t : FileTree) : Place → List String → Except OsError Place
  | place, [] => .ok place
  | place, name :: names =>
    match t.lookup? place with
    | none => .error .noEntry
    | some (.file _) => .error .notDirectory
    | some .directory =>
      if name = "" ∨ name = "." then t.walk place names
      else if name = ".." then t.walk place.dropLast names
      else if maxName < (Utf8.encode name).length then .error .nameTooLong
      else t.walk (place ++ [name]) names

/-- Where a path starts. -/
def start (t : FileTree) (p : Path) : Place := if p.isAbsolute then [] else t.workingDirectory

/-- Refuses what no tree has a place for: a path with a NUL in it, an empty one and one that is too
long. Every operation asks this first. -/
def check (p : Path) : Except OsError Unit :=
  if p.text.toList.contains '\x00' then .error .nulInName
  else if p.text.isEmpty then .error .noEntry
  else if maxPath ≤ (Utf8.encode p.text).length then .error .nameTooLong
  else .ok ()

/-- The place that a path names, whether or not something is there. -/
def resolve (t : FileTree) (p : Path) : Except OsError Place := do
  check p
  t.walk (t.start p) p.names

/-- What is at the end of a path. -/
def get (t : FileTree) (p : Path) : Except OsError Entry := do
  match t.lookup? (← t.resolve p) with
  | some entry => .ok entry
  | none => .error .noEntry

/-- Whether something is at the end of a path. -/
def contains (t : FileTree) (p : Path) : Bool := (t.get p).toBool

/-- Whether a file is at the end of a path. -/
def isFile (t : FileTree) (p : Path) : Bool :=
  match t.get p with
  | .ok (.file _) => true
  | _ => false

/-- The content of a file. -/
def read (t : FileTree) (p : Path) : Except OsError Bytes := do
  match ← t.get p with
  | .file content => .ok content
  | .directory => .error .isDirectory

/-- The place of a file that is about to be written. A path that ends in a slash names none, and its
last name is not looked at. -/
def target (t : FileTree) (p : Path) : Except OsError Place := do
  check p
  if p.endsInSlash then
    let parents := (p.names.reverse.dropWhile (· = "")).tail.reverse
    match t.lookup? (← t.walk (t.start p) parents) with
    | none => .error .noEntry
    | some (.file _) => .error .notDirectory
    | some .directory => .error .isDirectory
  else t.walk (t.start p) p.names

/-- Makes a file with this content, in place of the file that was there. -/
def write (t : FileTree) (p : Path) (content : Bytes) : Except OsError FileTree := do
  let place ← t.target p
  match t.lookup? place with
  | some .directory => .error .isDirectory
  | _ => .ok (t.set place (.file content))

/-- Removes a file. -/
def remove (t : FileTree) (p : Path) : Except OsError FileTree := do
  let place ← t.resolve p
  match t.lookup? place with
  | none => .error .noEntry
  | some .directory => .error .isDirectory
  | some (.file _) => .ok (t.erase place)

/-- Removes a file if anything is at the end of the path. -/
def removeIfPresent (t : FileTree) (p : Path) : Except OsError FileTree :=
  if t.contains p then t.remove p else .ok t

/-- Moves a file to another path, in place of the file that was there. -/
def rename (t : FileTree) (source destination : Path) : Except OsError FileTree := do
  let origin ← t.resolve source
  let place ← t.resolve destination
  match t.lookup? origin, t.lookup? place with
  | none, _ => .error .noEntry
  | some .directory, _ => .error .isDirectory
  | some (.file _), some .directory => .error .isDirectory
  -- the origin is gone first, as it may be the place itself
  | some (.file content), _ => .ok ((t.erase origin).set place (.file content))

/-- What is below a place, with the names that lead there from it. -/
def entriesBelow (t : FileTree) (place : Place) : List (Place × Entry) :=
  (t.entries.under place).entries.filter fun (names, _) => names ≠ []

/-- Whether something is below a place. -/
def hasChildren (t : FileTree) (place : Place) : Bool := !(t.entriesBelow place).isEmpty

/-- Removes an empty directory. -/
def removeDirectory (t : FileTree) (p : Path) : Except OsError FileTree := do
  let place ← t.resolve p
  match t.lookup? place with
  | none => .error .noEntry
  | some (.file _) => .error .notDirectory
  | some .directory => if t.hasChildren place then .error .notEmpty else .ok (t.erase place)

/-- Follows names from a place and makes the directories that are missing, up to the first name that
is in the way; what is made stays. A file that has to be passed is no directory. A file that is at
the end of the names, or is met after a directory is made, is there already: from then on the names
are made one by one. -/
def makeWalk (t : FileTree) (made : Bool) : Place → List String → Except OsError Unit × FileTree
  | _, [] => (.ok (), t)
  | place, name :: names =>
    if name = "" ∨ name = "." then t.makeWalk made place names
    else if name = ".." then t.makeWalk made place.dropLast names
    else if maxName < (Utf8.encode name).length then (.error .nameTooLong, t)
    else
      let place := place ++ [name]
      match t.lookup? place with
      | some .directory => t.makeWalk made place names
      | some (.file _) =>
        (.error (if made || names.all (· = "") then .alreadyExists else .notDirectory), t)
      | none => (t.set place .directory).makeWalk true place names

/-- Makes a directory and the directories above it, as far as they are missing. -/
def makeDirectories (t : FileTree) (p : Path) : Except OsError Unit × FileTree :=
  match check p with
  | .error e => (.error e, t)
  | .ok () => t.makeWalk false (t.start p) p.names

/-- The paths of everything below a place, seen from there, in the order of their characters; a
directory's path ends in a slash. -/
def list (t : FileTree) (place : Place) : List String :=
  let shown := (t.entriesBelow place).map fun (names, entry) =>
    String.intercalate "/" names ++
      (match entry with
        | .directory => "/"
        | .file _ => "")
  shown.mergeSort fun a b => decide (a ≤ b)

end FileTree

end TraceGraph
