import TraceGraph.Command.Arguments
import TraceGraph.Command.Report
import TraceGraph.Disassembly.StoreLibrary
import TraceGraph.Settings
import TraceGraph.TraceFiles.Export

/-!
# Running a command

A run reads the settings, opens the disk store, does what the command says and closes the
store. A command loads its trace first, and a layout starts its worker threads before that.
The run stops at the first of these that fails, with one line of complaint on standard
error. What a command prints it prints at the end, when nothing can fail any more.

Standard output is not silent until then: the log goes there too (`Output`). The start of
the worker threads is logged when they have started, the reading of the records when it has
come to their end, and a load when it has succeeded. So a run that fails later has written
these records, and whatever the library of the store has logged, but no text.

Besides the files a run depends on its environment (`Environment`): how many cores the
machine has, whether threads can be started, the library that keeps the store, and the texts
of the library that parses the command line. These are parameters, and a run is a function
of them, of the arguments and of the files (`runCommandLine`).
-/

namespace TraceGraph

/-- What a run finds besides the files. -/
structure Environment where
  /-- The number of cores of the machine. -/
  cores : Nat
  /-- Why no worker threads can be started, `none` if they can. -/
  poolFailure : Option String
  library : StoreLibrary
  /-- What the parser of command lines has to say where a command line asks for no command. -/
  parserText : List String → Command.Stop → String

/-- How many worker threads a machine with this many cores gets: half of them, so that the other
half stays free, and at least one. -/
def workerCount (cores : Nat) : Nat := max 1 (cores / 2)

/-- The worker threads were started. -/
def LogRecord.poolStarted (cores : Nat) : LogRecord where
  level := .info
  target := "tracevis::infrastructure::concurrency"
  message := "initialized layout thread pool"
  fields := [("workers", toString (workerCount cores)), ("cores", toString cores)]

/-- Why a command is not carried out. -/
inductive CommandError where
  | settings (error : SettingsError)
  | store (error : StoreError)
  | pool (reason : String)
  | load (error : LoadError)
  | exportDot (trace : String) (error : ExportError)
deriving DecidableEq, Repr

namespace CommandError

def message : CommandError → String
  | .settings e => e.message
  | .store e => e.message
  | .pool reason => reason
  | .load e => e.message
  | .exportDot trace e => s!"Failed to export {trace}: {e.message}"

end CommandError

/-! ## The stages of a run -/

namespace Environment

/-- Starts the worker threads. -/
def startPool (env : Environment) : Except CommandError Unit × List LogRecord :=
  match env.poolFailure with
  | some reason => (.error (.pool reason), [])
  | none => (.ok (), [LogRecord.poolStarted env.cores])

end Environment

/-- Does what a command says and returns what is to be printed and what is logged until then. Only
an export changes a file. -/
def Command.perform (env : Environment) (settings : Settings) (lookup : Lookup) (t : FileTree) :
    Command → Except CommandError (String × FileTree) × List LogRecord
  | .inspect trace =>
    match (TraceFiles.of settings.graphDirectory trace).loadLogged lookup t with
    | (.error e, log) => (.error (.load e), log)
    | (.ok g, log) => (.ok ((Summary.of g).report trace, t), log)
  | .layout trace =>
    match env.startPool with
    | (.error e, starting) => (.error e, starting)
    | (.ok (), starting) =>
      match (TraceFiles.of settings.graphDirectory trace).loadLogged lookup t with
      | (.error e, log) => (.error (.load e), starting ++ log)
      | (.ok g, log) =>
        let lines := (g.layout settings.sphere settings.lift).map layoutLine
        (.ok (String.join lines, t), starting ++ log)
  | .exportDot trace output =>
    match (TraceFiles.of settings.graphDirectory trace).exportDot lookup output t with
    | (.error e, log) => (.error (.exportDot trace e), log)
    | (.ok (summary, t), log) =>
      (.ok (summary.report trace ++ s!"Graph written to {output.text}\n", t), log)

/-- How a run ends. -/
structure Outcome where
  code : UInt8
  /-- What was written to standard output. -/
  output : List Output
  /-- The text on standard error. -/
  errors : String
  files : FileTree

namespace Outcome

/-- Ends without complaint. What a command prints comes behind what was logged until then. -/
def success (log : List LogRecord) (text : String) (closing : List LogRecord) (t : FileTree) :
    Outcome where
  code := 0
  output := log.map .record ++ .text text :: closing.map .record
  errors := ""
  files := t

/-- Ends because a command is not carried out. -/
def failure (log : List LogRecord) (e : CommandError) (t : FileTree) : Outcome where
  code := 1
  output := log.map .record
  errors := s!"Error: {e.message}\n"
  files := t

/-- The name and the version of the program. -/
def versionText : String := "tracevis 0.1.0\n"

/-- Ends before any command is known, with what the parser has to say. -/
def stopped (text : String) (t : FileTree) : Command.Stop → Outcome
  | .help _ => ⟨0, [.text text], "", t⟩
  | .version => ⟨0, [.text versionText], "", t⟩
  | .usage => ⟨2, [], text, t⟩

/-- The text that was printed, without the log. -/
def printed (outcome : Outcome) : String := Output.printed outcome.output

/-- What was logged. -/
def records (outcome : Outcome) : List LogRecord := Output.records outcome.output

end Outcome

namespace Invocation

/-- The settings of a run, in which the options in front of the command come first. -/
def settings (i : Invocation) (t : FileTree) : Except SettingsError Settings :=
  (Settings.load t i.config).map fun settings =>
    { settings with
      graphDirectory := i.graphDirectory.getD settings.graphDirectory
      disassemblyDirectory := i.disassemblyDirectory.getD settings.disassemblyDirectory }

/-- The trace files that a command reads. -/
def traceFiles (i : Invocation) (settings : Settings) : TraceFiles :=
  .of settings.graphDirectory i.command.trace

/-- Runs a command on the files in a tree. An open store is closed however the command ends. -/
def run (env : Environment) (i : Invocation) (t : FileTree) : Outcome :=
  match i.settings t with
  | .error e => .failure [] (.settings e) t
  | .ok settings =>
    match env.library.openStore settings.disassemblyDirectory t with
    | (.error e, t, opening) => .failure opening (.store e) t
    | (.ok read, t, opening) =>
      match i.command.perform env settings read.lookup t with
      | (.error e, log) =>
        let (t, closing) := env.library.close settings.disassemblyDirectory t
        .failure (opening ++ log ++ closing) e t
      | (.ok (text, t), log) =>
        let (t, closing) := env.library.close settings.disassemblyDirectory t
        .success (opening ++ log) text closing t

end Invocation

/-- Runs a command line on the files in a tree. -/
def runCommandLine (env : Environment) (arguments : List String) (t : FileTree) : Outcome :=
  match Invocation.parse arguments with
  | .error stop => .stopped (env.parserText arguments stop) t stop
  | .ok i => i.run env t

end TraceGraph
