import TraceGraph.TraceFiles

/-!
# Saving a trace

Both files are written beside their places first and moved there afterwards. Metadata that
could contradict the new nodes are removed before the nodes are moved, so at every moment
the files hold the old graph or the new one.

A save is a list of steps, each of which changes one file; it stops at the first step that
fails (`runSteps`). The list form is what makes it possible to speak of a save that was
interrupted: it has made some first steps, and perhaps part of the next one.

There are two lists. The first one writes the two staged files (`stageSteps`). If one of its
steps fails, what was written is removed, as far as it can be. The second one replaces the
files (`commitSteps`). If one of its steps fails, the staged files stay where they are.

To invalidate a trace is to remove its files and what is staged for them, the nodes first.
-/

namespace TraceGraph

/-- One change of the files. -/
inductive FileStep where
  | write (path : Path) (content : Bytes)
  | removeIfPresent (path : Path)
  | rename (source destination : Path)
deriving DecidableEq

/-- Makes one change. -/
def FileStep.run (t : FileTree) : FileStep → Except OsError FileTree
  | .write path content => t.write path content
  | .removeIfPresent path => t.removeIfPresent path
  | .rename source destination => t.rename source destination

/-- Why a graph cannot be saved. -/
inductive SaveError where
  | cannotCreate (path : Path) (error : OsError)
  | cannotReplaceMetadata (error : OsError)
  | cannotMoveNodes (path : Path) (error : OsError)
  | cannotMoveMetadata (error : OsError)
deriving DecidableEq, Repr

namespace SaveError

/-- What a message says of the failure. -/
def message : SaveError → String
  | .cannotCreate path e => s!"Failed to create {path.text}: {e.message}"
  | .cannotReplaceMetadata e => s!"Failed to replace graph metadata: {e.message}"
  | .cannotMoveNodes path e => s!"Failed to move node file into {path.text}: {e.message}"
  | .cannotMoveMetadata e => s!"Failed to move graph metadata into place: {e.message}"

end SaveError

namespace TraceFiles

/-- A change of the files, and what it means if it fails. -/
structure SaveStep where
  step : FileStep
  failure : OsError → SaveError

/-- Makes changes in order, up to the first that fails. -/
def runSteps : List SaveStep → FileTree → Except SaveError Unit × FileTree
  | [], t => (.ok (), t)
  | s :: steps, t =>
    match s.step.run t with
    | .error e => (.error (s.failure e), t)
    | .ok t => runSteps steps t

/-- Writes both files beside their places. -/
def stageSteps (files : TraceFiles) (createdAt : UInt64) (g : Graph) : List SaveStep :=
  let nodes := staging files.nodes
  let metadata := staging files.metadata
  [⟨.write nodes (nodesContent g), .cannotCreate nodes⟩,
    ⟨.write metadata (metadataContent createdAt g), .cannotCreate metadata⟩]

/-- Moves both files to their places. -/
def commitSteps (files : TraceFiles) : List SaveStep :=
  [⟨.removeIfPresent files.metadata, .cannotReplaceMetadata⟩,
    ⟨.rename (staging files.nodes) files.nodes, .cannotMoveNodes files.nodes⟩,
    ⟨.rename (staging files.metadata) files.metadata, .cannotMoveMetadata⟩]

/-- The tree without a file, or the tree itself if the file cannot be removed. -/
def discard (p : Path) (t : FileTree) : FileTree :=
  match t.remove p with
  | .ok t => t
  | .error _ => t

/-- Saves a graph. If it cannot be written beside its place, what was written of it is removed. -/
def save (files : TraceFiles) (createdAt : UInt64) (g : Graph) (t : FileTree) :
    Except SaveError Unit × FileTree :=
  match runSteps (files.stageSteps createdAt g) t with
  | (.error e, t) => (.error e, discard (staging files.metadata) (discard (staging files.nodes) t))
  -- from here on a failure leaves the staged files where they are
  | (.ok (), t) => runSteps files.commitSteps t

/-- Removes a file and the file that is prepared for its place. -/
def removeBoth (p : Path) (t : FileTree) : Except OsError Unit × FileTree :=
  match t.removeIfPresent p with
  | .error e => (.error e, t)
  | .ok t =>
    if t.isFile (staging p) then
      match t.remove (staging p) with
      | .error e => (.error e, t)
      | .ok t => (.ok (), t)
    else (.ok (), t)

/-- Removes all files of a trace. -/
def invalidate (files : TraceFiles) (t : FileTree) : Except OsError Unit × FileTree :=
  match removeBoth files.nodes t with
  | (.error e, t) => (.error e, t)
  | (.ok (), t) => removeBoth files.metadata t

end TraceFiles

end TraceGraph
