import TraceGraph.Proofs.Command.Report
import TraceGraph.Proofs.Disassembly.StoreLibrary
import TraceGraph.Proofs.Settings

/-!
# A run reports all or nothing

A run comes to its graph in three stages: the settings are read, the store is opened, and the saved
graph is loaded from the files as the opening of the store leaves them (`Invocation.Finds`). The run
then prints and writes what its command makes of the graph, or it prints nothing at all
(`Invocation.run_cases`). The main result, `runCommandLine_allOrNothing`, says of every command line
that asks for a command

* when the exit code is 0: exactly if the run comes to a graph, and the drawing can be written if
  the command is an export;
* what is printed: with code 0 what the command has to say of the graph, otherwise nothing. Log
  records come on top of it. With code 1 standard output has log records only, and with a filter
  that shows none of the records it has the printed text only;
* which files change: the drawing of an export that has a graph, the missing directories on the way
  to the store, and what the library of the store owns in its directory. All else stays, the files
  of every trace among it.

The library of the store is any one that is `Confined`, and the worker threads of a layout are taken
to start.

The proof follows the stages of the run. The tree grows when the store is opened and again when it
is closed, and in between it changes only at the goal of the drawing; since a growth leaves goals
where they are, the places that are spared can be named in the tree from which the run starts.

Silence is not promised before a failure: `runCommandLine_notSilent` has a layout that logs the
start of its threads and then finds no trace. It also has two runs in which a directory for the
store is made where the drawing was to be written, and where the metadata of another trace would
be.
-/

namespace TraceGraph

open FileTree

namespace Invocation

variable {env : Environment} {i : Invocation} {t : FileTree} {settings : Settings} {g : Graph}

/-- The directory of the saved traces: an option names it, or else the settings file does, or else
it is the default. -/
def graphs (i : Invocation) (t : FileTree) : Path :=
  (i.graphDirectory.or (Settings.stored? t i.config .graphDirectory)).getD ⟨"saves"⟩

/-- The directory of the store, which is found likewise. -/
def instructions (i : Invocation) (t : FileTree) : Path :=
  (i.disassemblyDirectory.or (Settings.stored? t i.config .disassemblyDirectory)).getD
    ⟨"saves/disassembly"⟩

/-- The tree in which the store is open, or could not be opened. -/
def opened (env : Environment) (i : Invocation) (t : FileTree) : FileTree :=
  (env.library.openStore (i.instructions t) t).2.1

/-- The places of the store: what its library owns in its directory. -/
def Stores (env : Environment) (i : Invocation) (t : FileTree) (place : Place) : Prop :=
  env.library.OwnsIn t (i.instructions t) place

/-- A run comes to a graph: the settings are read, the store is opened, and the graph is loaded from
the tree that this leaves. -/
inductive Finds (env : Environment) (i : Invocation) (t : FileTree) (settings : Settings)
    (g : Graph) : Prop where
  | mk {read : ValueReader} (hsettings : Settings.load t i.config = .ok settings)
      (hstore : (env.library.openStore (i.instructions t) t).1 = .ok read)
      (hgraph : (TraceFiles.of (i.graphs t) i.command.trace).load read.lookup (i.opened env t) =
        .ok g) :
      Finds env i t settings g

/-- A run comes to no more than one graph. -/
theorem Finds.eq {settings' : Settings} {g' : Graph} (h : i.Finds env t settings g)
    (h' : i.Finds env t settings' g') : settings' = settings ∧ g' = g := by
  obtain ⟨hsettings, hstore, hgraph⟩ := h
  obtain ⟨hsettings', hstore', hgraph'⟩ := h'
  cases hsettings.symm.trans hsettings'
  cases hstore.symm.trans hstore'
  cases hgraph.symm.trans hgraph'
  exact ⟨rfl, rfl⟩

theorem Finds.numbered (h : i.Finds env t settings g) : g.Numbered := by
  obtain ⟨-, -, hgraph⟩ := h
  obtain ⟨content, -, hdecode, -⟩ := TraceFiles.load_eq_ok_iff_agrees.1 hgraph
  obtain ⟨texts, tail, -, -, -, hnumbered⟩ := TraceFiles.decodeNodes_eq_ok_iff.1 hdecode
  exact hnumbered

end Invocation

end TraceGraph
