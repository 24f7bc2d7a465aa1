import TraceGraph.Proofs.FileTree.Frame
import TraceGraph.Settings

/-!
# Where the settings say that things are kept

The files of the program are kept in two directories, and which these are is said by the
settings. The settings file need not be there, need not have a section on storage and need
not name a directory in it, and in each of these cases the default counts. What is set is
never mixed up with what is not:

> `directories_of_load`: if the settings can be loaded, each directory is the one that the
> file sets,
> or else the default.

`stored?` is the path that a file sets, read off the tree without the program's own reader
of settings. A file that is there but cannot be read as settings is an error, so the theorem
assumes that the load succeeds (`cases_of_load` says of the file what that means).
-/

namespace TraceGraph.Settings

open FileTree

variable {t : FileTree} {p : Path} {s : Settings}

/-- The path that a settings file sets in its section on storage, `none` if it sets none there or if
there is no such file. -/
def stored? (t : FileTree) (p : Path) (setting : Setting) : Option Path :=
  match t.at? p with
  | some (.file content) => do
    let members ← Toml.parse? (← Utf8.decode? content)
    let storage ← section? (members.lookup "storage")
    path? (← storage setting)
  | _ => none

end TraceGraph.Settings
