import TraceGraph.Command

/-!
# Command lines

The words of a command line are read from left to right: options, the name of a command, and
the command's own words. What is wrong is found where it stands, so a question for help or
for the version is answered only if nothing in front of it is wrong.

The shape of a word is determined first, without regard to what is known of its options
(`Word`). A set of options, `Flags`, then tells what a word means: a reason to stop, or an
option with a value, which stands in the same word or is the next one. The same reader of
options serves in front of a command and behind it.

There is one subtlety. A value in a word of its own is not looked at until the next option
or the end of the options, so what is wrong with it is found later than what is wrong with a
value in the same word. That is why `readWords` carries the options as something that may
have failed already.

Three things can come of a command line that asks for no command: a question for help, one
for the version, and a complaint (`Stop`). What is printed then is not decided here.
-/

namespace TraceGraph.Command

/-- The commands by their names. -/
inductive Name where
  | inspect
  | layout
  | exportDot
deriving DecidableEq, Repr

/-- The command that a word names. -/
def Name.of? : String → Option Name
  | "inspect" => some .inspect
  | "layout" => some .layout
  | "export" => some .exportDot
  | _ => none

/-- What help can be asked about. -/
inductive Topic where
  | program
  | command (name : Name)
  /-- The question for help itself. -/
  | help
deriving DecidableEq, Repr

/-- Why a command line asks for no command. -/
inductive Stop where
  | help (topic : Topic)
  | version
  /-- The words make no sense. -/
  | usage
deriving DecidableEq, Repr

/-- A word by its shape. -/
inductive Word where
  | plain (text : String)
  /-- Two hyphens, behind which no word is an option. -/
  | endOfOptions
  /-- A name behind two hyphens, and a value behind an equals sign. -/
  | long (name : String) (value : Option String)
  /-- Letters behind one hyphen. -/
  | short (first : Char) (rest : List Char)
deriving DecidableEq, Repr

/-- The shape of a word. A single hyphen is a plain word. -/
def Word.ofChars : List Char → Word
  | ['-', '-'] => .endOfOptions
  | '-' :: '-' :: cs =>
    .long (String.ofList (cs.takeWhile (· ≠ '=')))
      ((cs.dropWhile (· ≠ '=')).tail?.map String.ofList)
  | '-' :: c :: cs => .short c cs
  | cs => .plain (String.ofList cs)

/-- The shape of a word of the command line. -/
def Word.of (text : String) : Word := .ofChars text.toList

/-- What the name or letter of an option stands for; `ι` are the options with a value. -/
inductive Flag (ι : Type) where
  | stop (reason : Stop)
  | takesValue (option : ι)

/-- The options that are known at some point of a command line. -/
structure Flags (ι : Type) where
  named : String → Option (Flag ι)
  lettered : Char → Option (Flag ι)

/-- An option as it stands on a command line. -/
inductive Occurrence (ι : Type) where
  | stop (reason : Stop)
  /-- The value stands in the same word. -/
  | attached (option : ι) (value : String)
  /-- The value is the next word. -/
  | detached (option : ι)

/-- The option that a word is, `none` if there is no such option. -/
def Flags.read {ι : Type} (flags : Flags ι) : Word → Option (Occurrence ι)
  | .long name value =>
    match flags.named name, value with
    | some (.stop reason), none => some (.stop reason)
    | some (.takesValue option), none => some (.detached option)
    | some (.takesValue option), some value => some (.attached option value)
    | _, _ => none
  | .short letter rest =>
    match flags.lettered letter, rest with
    | some (.stop reason), _ => some (.stop reason)
    | some (.takesValue option), [] => some (.detached option)
    | some (.takesValue option), '=' :: value => some (.attached option (String.ofList value))
    | some (.takesValue option), value => some (.attached option (String.ofList value))
    | none, _ => none
  | _ => none

/-! ## The words of a command -/

/-- What is given to a command so far. -/
structure Given where
  trace : Option String := none
  output : Option String := none

/-- The options of a command; only an export has an output. -/
def commandFlags (command : Name) : Flags Unit where
  named name :=
    if name = "help" then some (.stop (.help (.command command)))
    else if command = .exportDot ∧ name = "output" then some (.takesValue ())
    else none
  lettered letter :=
    if letter = 'h' then some (.stop (.help (.command command)))
    else if command = .exportDot ∧ letter = 'o' then some (.takesValue ())
    else none

namespace Given

/-- Nothing is given twice. -/
def setTrace (given : Given) (value : String) : Except Stop Given :=
  if given.trace.isNone then .ok { given with trace := some value } else .error .usage

def setOutput (given : Given) (value : String) : Except Stop Given :=
  if given.output.isNone then .ok { given with output := some value } else .error .usage

/-- Reads the words of a command. -/
def read (flags : Flags Unit) (given : Given) : List String → Except Stop Given
  | [] => .ok given
  | word :: rest =>
    match Word.of word with
    | .plain text => do read flags (← given.setTrace text) rest
    | .endOfOptions => rest.foldlM setTrace given
    | shaped =>
      match flags.read shaped with
      | some (.stop reason) => .error reason
      | some (.attached () value) => do read flags (← given.setOutput value) rest
      | some (.detached ()) =>
        match rest with
        | [] => .error .usage
        | next :: rest =>
          match Word.of next with
          | .plain value => do read flags (← given.setOutput value) rest
          | _ => .error .usage
      | none => .error .usage

end Given

/-- The command with a name and the words behind it. -/
def ofWords (name : Name) (words : List String) : Except Stop Command := do
  let given ← Given.read (commandFlags name) {} words
  match name, given.trace, given.output with
  | .inspect, some trace, _ => .ok (.inspect trace)
  | .layout, some trace, _ => .ok (.layout trace)
  | .exportDot, some trace, some output => .ok (.exportDot trace ⟨output⟩)
  | _, _, _ => .error .usage

/-! ## The words in front of a command -/

/-- The options in front of a command. -/
inductive PathOption where
  | config
  | graphs
  | disassembly
deriving DecidableEq, Repr

/-- The values of the options in front of a command. -/
structure PathOptions where
  config : Option Path := none
  graphs : Option Path := none
  disassembly : Option Path := none

namespace PathOptions

/-- The options in front of a command, by their names and letters. -/
def flags : Flags PathOption where
  named
    | "config" => some (.takesValue .config)
    | "graph-dir" => some (.takesValue .graphs)
    | "disassembly" => some (.takesValue .disassembly)
    | "help" => some (.stop (.help .program))
    | "version" => some (.stop .version)
    | _ => none
  lettered
    | 'c' => some (.takesValue .config)
    | 'h' => some (.stop (.help .program))
    | 'V' => some (.stop .version)
    | _ => none

/-- The value of an option so far. -/
def get : PathOption → PathOptions → Option Path
  | .config, options => options.config
  | .graphs, options => options.graphs
  | .disassembly, options => options.disassembly

/-- The options with one value replaced. -/
def put (path : Path) : PathOption → PathOptions → PathOptions
  | .config, options => { options with config := some path }
  | .graphs, options => { options with graphs := some path }
  | .disassembly, options => { options with disassembly := some path }

/-- An option is given once and not with an empty value. -/
def set (options : PathOptions) (option : PathOption) (value : String) : Except Stop PathOptions :=
  if value.isEmpty ∨ (options.get option).isSome then .error .usage
  else .ok (options.put ⟨value⟩ option)

end PathOptions

/-- Answers the words behind a question for help, which name the command that is asked about. -/
def stopForHelp : List String → Stop
  | [] => .help .program
  | ["help"] => .help .help
  | [word] =>
    match Name.of? word with
    | some name => .help (.command name)
    | none => .usage
  | _ => .usage

/-- Reads a whole command line. `options` is what the last value in a word of its own led to. -/
def readWords (options : Except Stop PathOptions) : List String → Except Stop Invocation
  | [] => .error .usage
  | word :: rest =>
    match Name.of? word with
    | some name => do
      let command ← ofWords name rest
      let options ← options
      .ok {
        config := options.config.getD Settings.defaultPath
        graphDirectory := options.graphs
        disassemblyDirectory := options.disassembly
        command }
    | none =>
      if word = "help" then .error (stopForHelp rest)
      else
        match PathOptions.flags.read (Word.of word) with
        | some (.stop reason) => do
          let _ ← options
          .error reason
        | some (.attached option value) => do
          readWords (.ok (← (← options).set option value)) rest
        | some (.detached option) =>
          match rest with
          | [] => .error .usage
          | next :: rest =>
            match Word.of next with
            | .plain value => do readWords ((← options).set option value) rest
            | _ => .error .usage
        | none => .error .usage

end Command

/-- The invocation that a command line spells. -/
def Invocation.parse (arguments : List String) : Except Command.Stop Invocation :=
  Command.readWords (.ok {}) arguments

end TraceGraph
