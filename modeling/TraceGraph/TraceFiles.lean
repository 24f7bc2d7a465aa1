import TraceGraph.FileTree
import TraceGraph.Graph.Section
import TraceGraph.Log
import TraceGraph.Metadata
import TraceGraph.Record.Printer

/-!
# The files of a trace

A trace is saved as a node file and a metadata file beside it. The node file is a header,
the records of all nodes in the order of their indices, and the end marker. The metadata say
how many nodes there are in all and of the external kind, in which version of the format
they are, and when they were saved.

A load goes from one to the other. The node file is read first, as a whole, and a single
record that cannot be read, is out of order or refers to an instruction that is not there
makes the load fail (`decodeSection`). Then the metadata have the last word: a load accepts
a missing metadata file, but never one that contradicts the nodes, is damaged or is of
another version (`checkMetadata`). All ways to fail are told apart in `LoadError`, with the
values that its messages show.

What is logged of a load is part of it (`loadLogged`): that the records were read, which may
be all if the metadata are refused, and that the graph was loaded. `load` leaves the log
out, and proofs use it by two equations, `load_eq` for the order of the checks and
`decodeNodes_eq` for the node file.
-/

namespace TraceGraph

/-- Where a trace is saved. -/
structure TraceFiles where
  nodes : Path
  metadata : Path
deriving DecidableEq, Repr

namespace TraceFiles

/-- The files of a named trace in a directory. -/
def of (dir : Path) (name : String) : TraceFiles where
  nodes := dir.join (name ++ ".nodes")
  metadata := dir.join (name ++ ".nodes.meta")

/-- Where a file is prepared before it is moved to its place. -/
def staging (p : Path) : Path := p.append ".tmp"

/-- The tag in front of the records. -/
def tag : Bytes := [78]

/-- The content of the node file. -/
def nodesContent (g : Graph) : Bytes :=
  tag ++ opener :: Record.encodeAll (g.nodes.map fun node => node.toRecord.unbound)

/-- What is noted about a graph that is saved at a given time. -/
def metadataOf (createdAt : UInt64) (g : Graph) : Metadata where
  version := Metadata.currentVersion
  createdAt
  nodeCount := .ofNat g.size
  externalCount := .ofNat g.externalCount

/-- The content of the metadata file. -/
def metadataContent (createdAt : UInt64) (g : Graph) : Bytes :=
  Utf8.encode (metadataOf createdAt g).render

/-- Whether the node file is there. -/
def present (files : TraceFiles) (t : FileTree) : Bool := t.contains files.nodes

end TraceFiles

/-- The records of a node file were read to the end marker. -/
def LogRecord.decoded (nodes bytes : Nat) : LogRecord where
  level := .debug
  target := "tracevis::infrastructure::graph_file"
  message := "decoded node section"
  fields := [("nodes", toString nodes), ("bytes", toString bytes)]

/-- A graph was loaded. -/
def LogRecord.loaded (nodes : Nat) (path : Path) : LogRecord where
  level := .info
  target := "tracevis::infrastructure::graph_file"
  message := "loaded graph"
  fields := [("nodes", toString nodes), ("path", path.text)]

/-- Why a saved graph cannot be loaded. -/
inductive LoadError where
  | cannotOpen (path : Path) (error : OsError)
  | cannotMap (path : Path) (error : OsError)
  | noHeader (found : String)
  | records (error : SectionError)
  | metadataUnreadable (error : OsError)
  | metadataNotText
  | metadataInvalid
  | metadataVersion (version : UInt32)
  | nodeCount (expected : UInt64) (actual : Nat)
  | externalCount (expected : UInt64) (actual : Nat)
deriving DecidableEq, Repr

namespace LoadError

/-- What a message says of the failure. -/
def message : LoadError → String
  | .cannotOpen path e => s!"Failed to open {path.text}: {e.message}"
  | .cannotMap path e => s!"Failed to map {path.text}: {e.message}"
  | .noHeader found => "Missing node section header, found " ++ Quoted.quote found
  | .records (.record offset e) => s!"Corrupt node record at byte {offset}: {e.message}"
  | .records (.order e) => s!"Node records out of order: {e.message}"
  | .metadataUnreadable e => e.message
  | .metadataNotText => "stream did not contain valid UTF-8"
  | .metadataInvalid => "Invalid graph metadata"
  | .metadataVersion version => s!"Unsupported graph metadata version {version.toNat}"
  | .nodeCount expected actual =>
    s!"Metadata expects {expected.toNat} nodes but the file holds {actual}"
  | .externalCount expected actual =>
    s!"Metadata expects {expected.toNat} external nodes but the file holds {actual}"

end LoadError

namespace TraceFiles

/-- The bytes of the node file. A directory can be opened, but holds no bytes. -/
def readNodes (files : TraceFiles) (t : FileTree) : Except LoadError Bytes :=
  match t.get files.nodes with
  | .error e => .error (.cannotOpen files.nodes e)
  | .ok .directory => .error (.cannotMap files.nodes .noDevice)
  | .ok (.file content) => .ok content

/-- The graph in the bytes of a node file, and how many bytes were read for it. -/
def decodeSection (lookup : Lookup) (content : Bytes) : Except LoadError (Graph × Nat) :=
  match ByteStream.token opener { rest := content } with
  | (.ok token, s) =>
    if token = ⟨tag, true⟩ then
      match Graph.extendTo lookup .empty s with
      | (.ok (), g, s) => .ok (g, s.offset)
      | (.error e, _) => .error (.records e)
    else .error (.noHeader (Utf8.lossy token.text))
  | (.error _, _) => .error (.noHeader "")

/-- The graph in the bytes of a node file. -/
def decodeNodes (lookup : Lookup) (content : Bytes) : Except LoadError Graph :=
  (decodeSection lookup content).map Prod.fst

/-- The header decides whether the section behind it is read. -/
theorem decodeNodes_eq (lookup : Lookup) (content : Bytes) :
    decodeNodes lookup content =
      match ByteStream.token opener { rest := content } with
      | (.ok token, s) =>
        if token = ⟨tag, true⟩ then
          match Graph.extend lookup .empty s with
          | (.ok (), g) => .ok g
          | (.error e, _) => .error (.records e)
        else .error (.noHeader (Utf8.lossy token.text))
      | (.error _, _) => .error (.noHeader "") := by
  unfold decodeNodes decodeSection Graph.extend
  rcases ByteStream.token opener { rest := content } with ⟨_ | token, s⟩
  · rfl
  · dsimp only
    split
    next =>
      rcases Graph.extendTo lookup .empty s with ⟨_ | _, g, s'⟩
      · rfl
      · rfl
    next => rfl

/-- The content of the metadata file, `none` if there is no such file. -/
def readMetadata (files : TraceFiles) (t : FileTree) : Except LoadError (Option Metadata) :=
  if t.contains files.metadata then
    match t.read files.metadata with
    | .error e => .error (.metadataUnreadable e)
    | .ok content =>
      match Utf8.decode? content with
      | none => .error .metadataNotText
      | some text =>
        match Metadata.parse? text with
        | none => .error .metadataInvalid
        | some m =>
          if m.version = Metadata.currentVersion then .ok (some m)
          else .error (.metadataVersion m.version)
  else .ok none

/-- Refuses metadata that contradict a graph. -/
def checkCounts (m : Metadata) (g : Graph) : Except LoadError Unit :=
  if m.nodeCount.toNat ≠ g.size then .error (.nodeCount m.nodeCount g.size)
  else if m.externalCount.toNat ≠ g.externalCount then
    .error (.externalCount m.externalCount g.externalCount)
  else .ok ()

/-- Refuses a graph that the metadata beside it contradict. -/
def checkMetadata (files : TraceFiles) (t : FileTree) (g : Graph) : Except LoadError Unit := do
  match ← files.readMetadata t with
  | none => return
  | some m => checkCounts m g

/-- The saved graph and what is logged of its load. One bad record makes the whole load fail. -/
def loadLogged (files : TraceFiles) (lookup : Lookup) (t : FileTree) :
    Except LoadError Graph × List LogRecord :=
  match files.readNodes t >>= decodeSection lookup with
  | .error e => (.error e, [])
  | .ok (g, bytes) =>
    match files.checkMetadata t g with
    -- the records were read to their end, whatever becomes of the metadata
    | .error e => (.error e, [LogRecord.decoded g.size bytes])
    | .ok () => (.ok g, [LogRecord.decoded g.size bytes, LogRecord.loaded g.size files.nodes])

/-- The saved graph. -/
def load (files : TraceFiles) (lookup : Lookup) (t : FileTree) : Except LoadError Graph :=
  (files.loadLogged lookup t).1

/-- The node file is read before the metadata, which have the last word. -/
theorem load_eq (files : TraceFiles) (lookup : Lookup) (t : FileTree) :
    files.load lookup t = do
      let content ← files.readNodes t
      let g ← decodeNodes lookup content
      files.checkMetadata t g
      return g := by
  unfold load loadLogged decodeNodes
  cases files.readNodes t with
  | error e => rfl
  | ok content =>
    dsimp only [bind, Except.bind]
    rcases decodeSection lookup content with _ | ⟨g, bytes⟩
    · rfl
    · dsimp only [Except.map]
      cases files.checkMetadata t g with
      | error e => rfl
      | ok _ => rfl

/-- The saved graph, or an empty one if there is none that can be loaded. -/
def loadOrEmpty (files : TraceFiles) (lookup : Lookup) (t : FileTree) : Graph :=
  match files.load lookup t with
  | .ok g => g
  | .error _ => .empty

end TraceFiles

end TraceGraph
