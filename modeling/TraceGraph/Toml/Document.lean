import TraceGraph.Toml.Moment
import TraceGraph.Toml.Number
import TraceGraph.Toml.Table
import TraceGraph.Toml.Text

/-!
# TOML documents

A document is a sequence of lines. A line assigns a value to a key, opens a section with a
header, or is empty; a comment may stand at its end. The assignments in front of the first
header belong to the document itself.

A document is read in two passes. The first one is the grammar: it goes line by line and
knows nothing of what the lines before said (`lines`). The second one makes a table of the
statements, in which a key must not have two values and a header must not open the same
table twice (`tableOf?`).

Values are nested, so the grammar is recursive. The recursion is on the depth that is left,
which is bounded in any case: a document whose values are nested as deep as `depthLimit`, or
one of whose keys has as many names, is refused.
-/

namespace TraceGraph.Toml

open Reader

/-- A key has fewer names, and values are nested less deep, than this. -/
def depthLimit : Nat := 80

/-- A comment goes to the end of its line. -/
def comment : Reader Unit := do
  char '#'
  let _ ← takeWhile isPlain

/-- What may stand around the elements of an array. -/
def filler : Reader Unit := do
  let _ ← many ((do let _ ← one isBlank) <|> lineBreak <|> (do comment; lineBreak))

/-- The characters of a name without quotes. -/
def isBare (c : Char) : Bool := Digits.isDigit 36 c || c = '-' || c = '_'

/-- A name is in quotes of either kind or bare. -/
def name : Reader String :=
  basicString <|> literalString <|> (String.ofList <$> oneOrMore (one isBare))

/-- Names between dots, with blanks around each of them. -/
def key : Reader Key := do
  let names ← separated (char '.') (blanks *> name <* blanks)
  require (names.length < depthLimit)
  match names.reverse with
  | [] => failure
  | name :: parents => return ⟨parents.reverse, name⟩

/-- A key and its value, and the blanks between them. -/
def assignment (value : Reader Value) : Reader Assignment := do
  let key ← key
  char '='
  blanks
  return ⟨key, ← value⟩

/-- An array may go over several lines, and a comma may stand behind its last element. -/
def array (value : Reader Value) : Reader Value := do
  char '['
  let elements ← separated (char ',') (filler *> value <* filler)
  if elements ≠ [] then let _ ← optional? (char ',')
  filler
  char ']'
  return .array elements

/-- A table on one line. No comma stands behind its last value. -/
def inlineTable (value : Reader Value) : Reader Value := do
  char '\x7b'
  let assignments ← separated (char ',') (assignment value <* blanks)
  blanks
  char '\x7d'
  match Entries.assignAll assignments [] with
  | none => failure
  | some entries => return .table (Item.toMembers entries)

/-- A value without others in it. -/
def scalar : Reader Value :=
  .string <$> string <|> moment *> pure .moment <|> .float <$> float <|> .integer <$> integer <|>
    word "true" *> pure (.boolean true) <|> word "false" *> pure (.boolean false)

/-- A value in which others are nested up to a depth. -/
def value : (depth : Nat) → Reader Value
  | 0 => scalar
  | depth + 1 => array (value depth) <|> inlineTable (value depth) <|> scalar

/-- What a line says. -/
inductive Statement where
  | assignment (a : Assignment)
  | header (repeated : Bool) (key : Key)

/-- A header in double brackets opens one more table of an array. -/
def header : Reader Statement :=
  (do word "[["; let k ← key; word "]]"; return .header true k) <|>
    (do char '['; let k ← key; char ']'; return .header false k)

/-- What a line says, if it says anything. -/
def statement : Reader Statement :=
  header <|> .assignment <$> assignment (value (depthLimit - 1))

/-- Takes nothing at the end of a text. -/
def atEnd : Reader Unit := do require (← ahead).isEmpty

/-- A line with its line break, which may be missing at the end of the text. -/
def line : Reader (Option Statement) := do
  blanks
  let s ← optional? statement
  blanks
  let _ ← optional? comment
  lineBreak <|> atEnd
  return s

/-- All lines of a document. A byte order mark may stand in front of them. -/
def lines : Reader (List Statement) := do
  let _ ← optional? (char '\uFEFF')
  return (← many line).reduceOption

/-- The assignments in front of the first header, and the sections. -/
def group : List Statement → List Assignment × List Section
  | [] => ([], [])
  | s :: rest =>
    let (assignments, sections) := group rest
    match s with
    | .assignment a => (a :: assignments, sections)
    | .header repeated key => ([], ⟨key, repeated, assignments⟩ :: sections)

/-- The table that statements make. -/
def tableOf? (statements : List Statement) : Option Entries := do
  let (assignments, sections) := group statements
  sections.foldlM Entries.addSection (← Entries.assignAll assignments [])

/-- The values in the text of a document, by their keys. -/
def parse? (text : String) : Option (List (String × Value)) := do
  let statements ← lines.whole? text.toList
  return Item.toMembers (← tableOf? statements)

end TraceGraph.Toml
