import TraceGraph.Json.Token

/-!
# JSON values

A value is built from its tokens by one pass with a stack of the arrays and objects that are
still open. The stack is data and not the stack of the reader, so nesting of any depth is
read, and the pass is a fold over the tokens (`Value.ofTokens?`).

A `State` says what may come next: a value, the first element or key of what was just
opened, a key, a colon, or what stands behind a complete value. A token that may not come
next refuses the whole text (`State.step`). At the end one value has to be complete and
nothing may be open; so nothing may stand behind the value.

A key that occurs twice in an object is no matter of the grammar. The members are kept in
their order, and who looks for a key has to say what becomes of the second one.
-/

namespace TraceGraph.Json

/-- A JSON value. The members of an object keep their order, and a key can occur twice. -/
inductive Value where
  | null
  | bool (value : Bool)
  | number (value : Number)
  | string (codes : List Nat)
  | array (elements : List Value)
  | object (members : List (List Nat × Value))

/-- An array or object that is still open, with what it holds so far in reverse. -/
inductive Frame where
  | array (done : List Value)
  /-- The value of `key` comes next. -/
  | object (done : List (List Nat × Value)) (key : List Nat)

/-- What may come next, and the frames around it, innermost first. -/
inductive State where
  | value (frames : List Frame)
  /-- The first element of an array, or its end. -/
  | element (frames : List Frame)
  /-- The first key of an object, or its end. -/
  | firstKey (frames : List Frame)
  | nextKey (done : List (List Nat × Value)) (frames : List Frame)
  | colon (done : List (List Nat × Value)) (key : List Nat) (frames : List Frame)
  /-- A value is complete and belongs to the innermost frame. -/
  | after (value : Value) (frames : List Frame)

namespace State

/-- The first token of a value. -/
def start (frames : List Frame) : Token → Option State
  | .null => some (.after .null frames)
  | .bool b => some (.after (.bool b) frames)
  | .number n => some (.after (.number n) frames)
  | .string codes => some (.after (.string codes) frames)
  | .openBracket => some (.element frames)
  | .openBrace => some (.firstKey frames)
  | _ => none

/-- The state behind one more token. -/
def step : State → Token → Option State
  | .value frames, t => start frames t
  | .element frames, .closeBracket => some (.after (.array []) frames)
  | .element frames, t => start (.array [] :: frames) t
  | .firstKey frames, .closeBrace => some (.after (.object []) frames)
  | .firstKey frames, .string key => some (.colon [] key frames)
  | .nextKey done frames, .string key => some (.colon done key frames)
  | .colon done key frames, .colon => some (.value (.object done key :: frames))
  | .after v (.array done :: frames), .comma => some (.value (.array (v :: done) :: frames))
  | .after v (.array done :: frames), .closeBracket =>
    some (.after (.array (v :: done).reverse) frames)
  | .after v (.object done key :: frames), .comma => some (.nextKey ((key, v) :: done) frames)
  | .after v (.object done key :: frames), .closeBrace =>
    some (.after (.object ((key, v) :: done).reverse) frames)
  | _, _ => none

end State

/-- The value that a sequence of tokens spells. -/
def Value.ofTokens? (tokens : List Token) : Option Value :=
  match tokens.foldlM State.step (.value []) with
  | some (.after v []) => some v
  | _ => none

/-- The value of a JSON text. -/
def Value.parse? (text : List Char) : Option Value := do
  Value.ofTokens? (← tokens? text)

end TraceGraph.Json
