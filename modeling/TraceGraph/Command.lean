import TraceGraph.FileTree

/-!
# Commands

A command names a saved trace and what is to be done with it: its counts are printed, or the
places of its nodes, or its drawing is written to a file. Only the last of these changes a
file, and only it has one more argument.

An invocation adds where the settings are and which directories are to be used in place of
the ones in the settings. The directories are optional, since whether an option was given
matters: a directory that is not given is looked for in the settings, and a settings file
that is not given has a default name.

How a command line is read is a matter of its own (`Invocation.parse`), and so is what a run
of an invocation does (`Invocation.run`).
-/

namespace TraceGraph

/-- What is to be done with a saved trace. -/
inductive Command where
  /-- Print the counts of the graph. -/
  | inspect (trace : String)
  /-- Print the place of every node. -/
  | layout (trace : String)
  /-- Write the drawing of the graph. -/
  | exportDot (trace : String) (output : Path)
deriving DecidableEq, Repr

namespace Command

/-- The trace that a command is about. -/
def trace : Command → String
  | .inspect trace => trace
  | .layout trace => trace
  | .exportDot trace _ => trace

end Command

/-- Where the settings are if no option says so. -/
def Settings.defaultPath : Path := ⟨"tracevis.toml"⟩

/-- A command with the options in front of it. -/
structure Invocation where
  config : Path := Settings.defaultPath
  graphDirectory : Option Path := none
  disassemblyDirectory : Option Path := none
  command : Command
deriving DecidableEq, Repr

end TraceGraph
