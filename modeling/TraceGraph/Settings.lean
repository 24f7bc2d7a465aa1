import TraceGraph.FileTree
import TraceGraph.Sphere
import TraceGraph.Toml.Document

/-!
# Settings

A settings file says how the sphere is drawn and where graphs and instructions are kept.
Whatever it leaves out keeps its default, names that no setting has are passed over, and a
missing file sets nothing.

A setting that is set has to have a value of the right kind, though: a number for the
sphere, where an integer is rounded like any other number, and a text for a directory.
Otherwise the whole file is refused, and so it is if it is no TOML. A file that cannot be
read, or is no text, is an error of its own.

The two sections of a file are read alike (`section?`). A section is a table, in which a
setting is found by its name, or an array, in which it is found by its place. Which settings
there are, and how they are called, is a type, `Setting`, so that the reader and what is
said of it go by the same names.
-/

namespace TraceGraph

/-- How traces are drawn and where they are kept. -/
structure Settings where
  sphere : Sphere := {}
  /-- Added to the radius of the sphere. -/
  lift : Float32 := 0
  graphDirectory : Path := ⟨"saves"⟩
  disassemblyDirectory : Path := ⟨"saves/disassembly"⟩

/-- What a settings file can set. -/
inductive Setting where
  | radius
  | longitudeStep
  | polarStep
  | lift
  | graphDirectory
  | disassemblyDirectory
deriving DecidableEq, Repr

namespace Setting

/-- The name of a setting in a section that is a table. -/
def name : Setting → String
  | radius => "radius"
  | longitudeStep => "h_multiplier"
  | polarStep => "v_multiplier"
  | lift => "diam_modifier"
  | graphDirectory => "graph_dir"
  | disassemblyDirectory => "disassembly_dir"

/-- The place of a setting in a section that is an array. The first four stand in the section on the
sphere, the others in the one on storage. -/
def position : Setting → Nat
  | radius => 0
  | longitudeStep => 1
  | polarStep => 2
  | lift => 3
  | graphDirectory => 0
  | disassemblyDirectory => 1

end Setting

/-- Why there are no settings. -/
inductive SettingsError where
  | unreadable (path : Path) (error : OsError)
  | notText (path : Path)
  | invalid
deriving DecidableEq, Repr

namespace SettingsError

/-- What a message says of the error. -/
def message : SettingsError → String
  | .unreadable path e => s!"Cannot read config {path.text}: {e.message}"
  | .notText path => s!"Cannot read config {path.text}: stream did not contain valid UTF-8"
  | .invalid => "Invalid tracevis config"

end SettingsError

namespace Settings

/-- What a section sets: by name in a table and by position in an array. A date has no names. -/
def section? : Option Toml.Value → Option (Setting → Option Toml.Value)
  | none => some fun _ => none
  | some (.table members) => some fun setting => members.lookup setting.name
  | some (.array elements) => some fun setting => elements[setting.position]?
  | some .moment => some fun _ => none
  | some _ => none

/-- A number of either kind, rounded to single precision. -/
def number? : Toml.Value → Option Float32
  | .integer n => some (Int64.ofInt n).toFloat32
  | .float x => some x.toFloat32
  | _ => none

/-- A text, taken for a path. -/
def path? : Toml.Value → Option Path
  | .string text => some ⟨text⟩
  | _ => none

/-- The value of a setting: its default if it is not set, and nothing if it is set to a value of
another kind. -/
def orDefault? {α : Type} (convert : Toml.Value → Option α) (default : α) :
    Option Toml.Value → Option α
  | none => some default
  | some v => convert v

/-- The settings in the table of a document. -/
def ofMembers? (members : List (String × Toml.Value)) : Option Settings := do
  let plain : Settings := {}
  let drawing ← section? (members.lookup "sphere")
  let storage ← section? (members.lookup "storage")
  some {
    sphere := {
      radius := ← orDefault? number? plain.sphere.radius (drawing .radius)
      longitudeStep := ← orDefault? number? plain.sphere.longitudeStep (drawing .longitudeStep)
      polarStep := ← orDefault? number? plain.sphere.polarStep (drawing .polarStep) }
    lift := ← orDefault? number? plain.lift (drawing .lift)
    graphDirectory := ← orDefault? path? plain.graphDirectory (storage .graphDirectory)
    disassemblyDirectory :=
      ← orDefault? path? plain.disassemblyDirectory (storage .disassemblyDirectory) }

/-- The settings in the text of a file. -/
def parse (text : String) : Except SettingsError Settings :=
  match (Toml.parse? text).bind ofMembers? with
  | some settings => .ok settings
  | none => .error .invalid

/-- The settings in a file, or the defaults if there is no such file. -/
def load (t : FileTree) (p : Path) : Except SettingsError Settings :=
  if t.contains p then
    match t.read p with
    | .error e => .error (.unreadable p e)
    | .ok content =>
      match Utf8.decode? content with
      | none => .error (.notText p)
      | some text => parse text
  -- no file, no settings but the defaults
  else .ok {}

end Settings

end TraceGraph
