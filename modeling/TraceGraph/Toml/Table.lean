/-!
# Tables and their values

A table grows by assignments to keys and by sections with a header. Tables on the way to a
dotted key or a header are made as they are needed, and how a table came to be decides what
may still be added to it: a header opens a table at most once, and a dotted key never adds
to a table that a header or a value defines.

So while a table is built, each table in it is kept with its origin (`Origin`), and what a
key stands for is an `Item`: a finished value, a table that is being built, or the tables of
a repeated header, of which the last one is being built. All changes go through one
function, `Entries.alter`, which follows a path and changes the table at its end; an
assignment and a section are two changes of this kind (`Entries.assign`,
`Entries.addSection`).

When all is read the origins are forgotten (`Item.toMembers`).
-/

namespace TraceGraph.Toml

/-- A TOML value. Of a date or a time only is kept that it is one. -/
inductive Value where
  | string (text : String)
  | integer (value : Int)
  | float (value : Float)
  | boolean (value : Bool)
  | moment
  | array (elements : List Value)
  /-- The keys of a table are distinct. -/
  | table (members : List (String × Value))

/-! ## Tables that are being built -/

/-- How a table came to be. -/
inductive Origin where
  /-- By its own header. -/
  | header
  /-- On the way to the table of another header. -/
  | implied
  /-- On the way to a dotted key. -/
  | dotted
deriving DecidableEq

/-- What a key stands for while a table is built. -/
inductive Item where
  | value (v : Value)
  | table (origin : Origin) (entries : List (String × Item))
  /-- The tables of a repeated header. -/
  | tables (elements : List (List (String × Item)))

/-- What a table holds while it is built. -/
abbrev Entries := List (String × Item)

/-- A key with the keys of the tables around it. -/
structure Key where
  parents : List String
  name : String
deriving DecidableEq

/-- Gives a value to a key. -/
structure Assignment where
  key : Key
  value : Value

/-- The assignments below a header. -/
structure Section where
  key : Key
  /-- Whether the header opens one more table of an array. -/
  repeated : Bool
  assignments : List Assignment

namespace Entries

/-- What a name stands for. -/
def find? (name : String) (entries : Entries) : Option Item := entries.lookup name

/-- Puts an item in place of what the name stood for. -/
def put (name : String) (item : Item) : Entries → Entries
  | [] => [(name, item)]
  | (n, i) :: entries =>
    if n = name then (name, item) :: entries else (n, i) :: put name item entries

/-- Changes the table at the end of a path, making the tables on the way that are missing. Of an
array of tables the last is meant. -/
def alter (origin : Origin) (change : Origin → Entries → Option Entries) :
    (path : List String) → Origin → Entries → Option Entries
  | [], here, entries => change here entries
  | name :: path, _, entries => do
    let item ← match find? name entries with
      | none => Item.table origin <$> alter origin change path origin []
      | some (.value _) => none
      | some (.table o inner) =>
        if origin = .dotted ∧ o = .header then none
        else Item.table o <$> alter origin change path o inner
      | some (.tables elements) => do
        let last ← alter origin change path .header (← elements.getLast?)
        some (.tables (elements.dropLast ++ [last]))
    some (put name item entries)

/-- Gives a value to a key that has none. A dotted key belongs to a table that dotted keys made. -/
def assign (entries : Entries) (a : Assignment) : Option Entries :=
  let change (here : Origin) (inner : Entries) : Option Entries :=
    if a.key.parents = [] ∨ here = .dotted then
      match find? a.key.name inner with
      | none => some (put a.key.name (.value a.value) inner)
      | some _ => none
    else none
  alter .dotted change a.key.parents .header entries

/-- Makes assignments in order. -/
def assignAll (as : List Assignment) (entries : Entries) : Option Entries :=
  as.foldlM assign entries

/-- Adds the table of a section. -/
def addSection (entries : Entries) (s : Section) : Option Entries :=
  let change (_ : Origin) (inner : Entries) : Option Entries := do
    let item ← match s.repeated, find? s.key.name inner with
      | false, none => Item.table .header <$> assignAll s.assignments []
      | false, some (.table .implied known) => Item.table .header <$> assignAll s.assignments known
      | true, none => do some (Item.tables [← assignAll s.assignments []])
      | true, some (.tables known) => do
        some (Item.tables (known ++ [← assignAll s.assignments []]))
      | _, _ => none
    some (put s.key.name item inner)
  alter .implied change s.key.parents .header entries

end Entries

/-! ## Finished tables -/

mutual

/-- The value of an item. -/
def Item.toValue : Item → Value
  | .value v => v
  | .table _ entries => .table (Item.toMembers entries)
  | .tables elements => .array (Item.toElements elements)

/-- The values of the items of a table. -/
def Item.toMembers : List (String × Item) → List (String × Value)
  | [] => []
  | (name, item) :: entries => (name, item.toValue) :: Item.toMembers entries

/-- The values of the tables of an array. -/
def Item.toElements : List (List (String × Item)) → List Value
  | [] => []
  | entries :: elements => .table (Item.toMembers entries) :: Item.toElements elements

end

end TraceGraph.Toml
