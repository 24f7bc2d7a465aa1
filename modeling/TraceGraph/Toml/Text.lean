import TraceGraph.Text.Numerals
import TraceGraph.Text.Reader

/-!
# TOML strings

Strings come in four forms: with escapes or without, on one line or on several. Line breaks
are a line feed, before which a carriage return may stand; in a string of several lines they
are all read as a line feed.

The two forms on several lines are one reader with a parameter for the pieces that may stand
in them (`multiline`). Where such a string ends takes some care. One or two quotes may stand
in it anywhere, and one or two more directly in front of the three that close it
(`innerQuote`, `closing`). A line break right behind the opening quotes does not belong to
the string, and a backslash at the end of a line takes away everything up to the next
character that is not blank.
-/

namespace TraceGraph.Toml

open Reader

/-- Blanks stand between the parts of a line. -/
def isBlank (c : Char) : Bool := c = ' ' || c = '\t'

/-- Takes all blanks. -/
def blanks : Reader Unit := do let _ ← takeWhile isBlank

/-- Takes a line break of either form. -/
def lineBreak : Reader Unit := word "\n" <|> word "\r\n"

/-- No other control character than a tab stands in a comment or in a string. -/
def isPlain (c : Char) : Bool := c = '\t' || (' ' ≤ c && c ≠ '\x7f')

/-- The characters that stand for themselves where there are escapes. -/
def isUnescaped (c : Char) : Bool := isPlain c && c ≠ '"' && c ≠ '\\'

/-- The characters that stand for themselves where there are no escapes. -/
def isLiteral (c : Char) : Bool := isPlain c && c ≠ '\''

/-- A character that is named by its code. Surrogates are no characters. -/
def namedCode (digits : Nat) : Reader Char := do
  let ds ← times (one (Digits.isDigit 16)) digits
  let code := Digits.number 16 ds
  require code.isValidChar
  return Char.ofNat code

/-- A backslash and what it makes of the characters behind it. -/
def escape : Reader Char := do
  char '\\'
  match ← one fun _ => true with
  | 'b' => return '\x08'
  | 'f' => return '\x0c'
  | 'n' => return '\n'
  | 'r' => return '\r'
  | 't' => return '\t'
  | '"' => return '"'
  | '\\' => return '\\'
  | 'u' => namedCode 4
  | 'U' => namedCode 8
  | _ => failure

/-- A backslash at the end of a line takes away all blanks and line breaks behind it. -/
def escapedBreak : Reader Unit := do
  char '\\'
  blanks
  lineBreak
  let _ ← many (lineBreak <|> do let _ ← one isBlank)

/-- A quote that does not start the three closing ones. -/
def innerQuote (quote : Char) : Reader Char := do
  require ((← ahead).take 3 ≠ [quote, quote, quote])
  one (· = quote)

/-- Three closing quotes, before which one or two more may stand that belong to the string. -/
def closing (quote : Char) : Reader (List Char) := do
  let run ← takeWhile (· = quote)
  require (3 ≤ run.length ∧ run.length ≤ 5)
  return run.drop 3

/-- A string with escapes on one line. -/
def basicString : Reader String := do
  char '"'
  let cs ← many (one isUnescaped <|> escape)
  char '"'
  return String.ofList cs

/-- A string without escapes on one line. -/
def literalString : Reader String := do
  char '\''
  let cs ← takeWhile isLiteral
  char '\''
  return String.ofList cs

/-- A string on several lines from its pieces. A line break right behind the opening quotes does
not belong to it. -/
def multiline (quote : Char) (piece : Reader (List Char)) : Reader String := do
  let _ ← times (char quote) 3
  let _ ← optional? lineBreak
  let pieces ← many (piece <|> (lineBreak *> pure ['\n']) <|> ((fun c => [c]) <$> innerQuote quote))
  let last ← closing quote
  return String.ofList (pieces.flatten ++ last)

/-- A string with escapes on several lines. -/
def multilineBasic : Reader String :=
  multiline '"' ((fun c => [c]) <$> one isUnescaped <|> escapedBreak *> pure [] <|>
    (fun c => [c]) <$> escape)

/-- A string without escapes on several lines. -/
def multilineLiteral : Reader String := multiline '\'' ((fun c => [c]) <$> one isLiteral)

/-- A string of any form. -/
def string : Reader String :=
  multilineBasic <|> basicString <|> multilineLiteral <|> literalString

end TraceGraph.Toml
