import TraceGraph.Command.Run

/-!
# The program

What a run looks at is copied from the disk into a tree, the command line is run on the
tree, and what the run changed in the tree is changed on the disk. Everything between the
two copies is `runCommandLine`; this module has no logic of its own but the copying.

Which files a run looks at is known in advance: the settings file, the two files of the
trace, the directory of the store, and what is where a drawing is to be written. Only what
is at these paths and on the way to them is copied, so the tree is small, and the content of
a file is copied only if the run reads it.

The module also settles what `runCommandLine` leaves open. The texts of the parser are those
of the options and commands in its usual arrangement. The library that keeps the store is
one that has its values in memory, so they are read beforehand from files that are named for
their addresses. The log is switched off.
-/

namespace TraceGraph.Program

/-- The place on the disk where a path starts, and the names to follow from there. -/
def namesFrom (here : Place) (p : Path) : List String :=
  if p.isAbsolute then p.names else here ++ p.names

/-- The text of a place on the disk. -/
def absolute (place : Place) : String := "/" ++ String.intercalate "/" place

/-- Copies what the names lead to, and the directories on the way. The content of a file is copied
only if it is asked for, and a copy that is there already is kept. The names go on where nothing is,
because they may lead back from there. -/
def copyNames (content : Bool) (t : FileTree) : Place → List String → IO FileTree
  | _, [] => return t
  | place, name :: names => do
    if name = "" ∨ name = "." then copyNames content t place names
    else if name = ".." then copyNames content t place.dropLast names
    else
      let place := place ++ [name]
      let path := (← IO.currentDir) / absolute place
      if ← path.isDir then copyNames content (t.set place .directory) place names
      else if (t.lookup? place).isSome then return t
      else if ← path.pathExists then
        let bytes ← if content then IO.FS.readBinFile path else pure .empty
        return t.set place (.file bytes.data.toList)
      else copyNames content t place names

/-- Copies what is at a path. -/
def copy (t : FileTree) (p : Path) (content : Bool) : IO FileTree :=
  copyNames content t [] (namesFrom t.workingDirectory p)

/-- Copies what a run of an invocation looks at. -/
def copyFor (i : Invocation) (t : FileTree) : IO FileTree := do
  let t ← copy t i.config true
  match i.settings t with
  | .error _ => return t
  | .ok settings =>
    let t ← copy t (StoreLibrary.blobDirectory settings.disassemblyDirectory) false
    let files := i.traceFiles settings
    let t ← copy t files.nodes true
    let t ← copy t files.metadata true
    match i.command with
    | .exportDot _ output => copy t output false
    | _ => return t

/-- The address that a file is named for. -/
def addressOf? (name : String) : Option UInt64 :=
  let address := UInt64.ofNat (Digits.number 16 (name.toList.drop 2))
  if Hexadecimal.address address = name then some address else none

/-- The values in the files of a store. -/
def storedValues (i : Invocation) (t : FileTree) : IO (FiniteMap UInt64 Bytes) := do
  let .ok settings := i.settings t | return .empty
  let path := (← IO.currentDir) / (StoreLibrary.blobDirectory settings.disassemblyDirectory).text
  let mut values := FiniteMap.empty
  if ← path.isDir then
    for entry in ← path.readDir do
      if let some address := addressOf? entry.fileName then
        values := values.set address (← IO.FS.readBinFile entry.path).data.toList
  return values

/-- Makes the changes between two trees on the disk. -/
def writeChanges (before after : FileTree) : IO Unit := do
  for (place, entry) in after.entries.entries do
    if before.lookup? place ≠ some entry then
      match entry with
      | .directory => IO.FS.createDirAll (absolute place)
      | .file bytes => IO.FS.writeBinFile (absolute place) ⟨bytes.toArray⟩

/-- A tree in which nothing is but the directories down to the working directory. -/
def startTree : IO FileTree := do
  let here := (Path.mk (← IO.currentDir).toString).names.filter (· ≠ "")
  copyNames false { FileTree.empty with workingDirectory := here } [] here

/-! ## What the parser has to say -/

/-- What a command is for. -/
def about : Command.Name → String
  | .inspect => "Print node and edge counts for a saved trace"
  | .layout => "Print the sphere position of every node"
  | .exportDot => "Write a Graphviz rendering of a saved trace"

/-- How a command is called. -/
def usage : Command.Name → String
  | .inspect => "tracevis inspect <TRACE>"
  | .layout => "tracevis layout <TRACE>"
  | .exportDot => "tracevis export --output <OUTPUT> <TRACE>"

def programUsage : String := "tracevis [OPTIONS] <COMMAND>"

def programHelp : String := String.join [
  "TraceVis - Execution trace graph nodes and their line-oriented save format.\n\n",
  s!"Usage: {programUsage}\n\n",
  "Commands:\n",
  s!"  inspect  {about .inspect}\n",
  s!"  layout   {about .layout}\n",
  s!"  export   {about .exportDot}\n",
  "  help     Print this message or the help of the given subcommand(s)\n\n",
  "Options:\n",
  "  -c, --config <CONFIG>            Config file [default: tracevis.toml]\n",
  "      --graph-dir <GRAPH_DIR>      Directory holding saved graphs (overrides the config)\n",
  "      --disassembly <DISASSEMBLY>  Disassembly store directory (overrides the config)\n",
  "  -h, --help                       Print help\n",
  "  -V, --version                    Print version\n"]

def commandHelp (name : Command.Name) : String :=
  s!"{about name}\n\nUsage: {usage name}\n\nArguments:\n  <TRACE>  \n\nOptions:\n" ++
    if name = .exportDot then
      "  -o, --output <OUTPUT>  Output file path\n  -h, --help             Print help\n"
    else "  -h, --help  Print help\n"

/-- What is said of the question for help itself. -/
def helpHelp : String :=
  "Print this message or the help of the given subcommand(s)\n\n" ++
    "Usage: tracevis help [COMMAND]...\n\n" ++
    "Arguments:\n  [COMMAND]...  Print help for the subcommand(s)\n"

/-- The text for a command line that asks for no command. A complaint does not go into what is wrong
with the words. -/
def parserText : Command.Stop → String
  | .help .program => programHelp
  | .help (.command name) => commandHelp name
  | .help .help => helpHelp
  | .version => Outcome.versionText
  | .usage => s!"Usage: {programUsage}\n"

/-- A machine whose threads can be started, and a library with these values. -/
def environment (values : FiniteMap UInt64 Bytes) : Environment where
  cores := 2
  poolFailure := none
  library := .detached fun _ => values
  parserText _ := parserText

/-- A writer that shows no record. -/
def silent : LogWriter where
  filter := some fun _ => false
  line _ record := record.message ++ "\n"

end TraceGraph.Program

open TraceGraph in
def main (arguments : List String) : IO UInt32 := do
  let start ← Program.startTree
  let (t, values) ← match Invocation.parse arguments with
    | .ok i =>
      let t ← Program.copyFor i start
      pure (t, ← Program.storedValues i t)
    | .error _ => pure (start, .empty)
  let outcome := runCommandLine (Program.environment values) arguments t
  Program.writeChanges t outcome.files
  (← IO.getStdout).putStr (Program.silent.stdout outcome.output)
  (← IO.getStderr).putStr outcome.errors
  return outcome.code.toUInt32
