/-!
# Readers of text

A reader takes a first part of a text and returns what it says with the rest, or refuses the
text. Readers are functions with a state that can fail, so they can be put in sequence, and
of two alternatives the second is tried on the same text: a refusal takes nothing.

This is enough for the grammars that are read here. They are written so that a reader never
has to take back what an alternative has accepted.

A repetition ends where its item refuses the text or takes nothing of it. The second
condition is what makes a repetition come to an end for any item (`many`), and the number of
characters that are left is kept with the text so that it can be tested without counting
them each time.
-/

namespace TraceGraph

/-- What of a text is not read yet, and how many characters that are. Keeping the number makes it
cheap to see whether a reader took anything. -/
structure Unread where
  chars : List Char
  length : Nat

/-- Reads a first part of a text. -/
abbrev Reader := StateT Unread Option

namespace Reader

/-- Reads a whole text. -/
def whole? {α : Type} (r : Reader α) (text : List Char) : Option α :=
  match r ⟨text, text.length⟩ with
  | some (a, ⟨[], _⟩) => some a
  | _ => none

/-- The characters that are not read yet, which stay in the text. -/
def ahead : Reader (List Char) := fun text => some (text.chars, text)

/-- Takes a character of a class. -/
def one (p : Char → Bool) : Reader Char := fun text =>
  match text.chars with
  | [] => none
  | c :: cs => if p c then some (c, ⟨cs, text.length - 1⟩) else none

/-- Takes a given character. -/
def char (c : Char) : Reader Unit := do let _ ← one (· = c)

/-- Takes a given word. -/
def word (text : String) : Reader Unit := text.toList.forM char

/-- Takes the characters of a class, as many as there are. -/
def takeWhile (p : Char → Bool) : Reader (List Char) := fun text =>
  let taken := text.chars.takeWhile p
  some (taken, ⟨text.chars.drop taken.length, text.length - taken.length⟩)

/-- Reads an item or takes nothing. -/
def optional? {α : Type} (item : Reader α) : Reader (Option α) := (some <$> item) <|> pure none

/-- Refuses every text on which a condition fails. -/
def require (b : Bool) : Reader Unit := if b then pure () else failure

/-- Reads an item as often as it is there. -/
def many {α : Type} (item : Reader α) (text : Unread) : Option (List α × Unread) :=
  match item text with
  | none => some ([], text)
  | some (a, rest) =>
    if rest.length < text.length then (many item rest).map fun (as, last) => (a :: as, last)
    else some ([], text)
termination_by text.length

/-- Reads an item once or more often. -/
def oneOrMore {α : Type} (item : Reader α) : Reader (List α) := do
  let a ← item
  let as ← many item
  return a :: as

/-- Reads an item exactly `n` times. -/
def times {α : Type} (item : Reader α) : (n : Nat) → Reader (List α)
  | 0 => pure []
  | n + 1 => do
    let a ← item
    let as ← times item n
    return a :: as

/-- Reads items with a separator between them. A separator that no item follows stays in the
text. -/
def separated {α : Type} (separator : Reader Unit) (item : Reader α) : Reader (List α) :=
  (do
    let a ← item
    let as ← many (do separator; item)
    return a :: as) <|> pure []

end Reader

end TraceGraph
