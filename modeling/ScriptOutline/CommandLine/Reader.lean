/-
**Reading the command line.**

Arguments are read from left to right.  Before the name of a command only the option for the
settings may stand, behind it that option, those of the command and one path, in any order.  An
option has a long name after two dashes and a short one after a dash, and its value follows it in
the same argument or in the next one.  After two dashes alone there are only paths.  A value that
stands in an argument of its own is checked when the next option or path is met, or at the end.

Main definitions:

* `CommandName`, `Slot`, `Switch` — commands, what options set, and what an argument can mean;
* `Values` — what was set so far;
* `Reading` — the same, with a value that is not checked yet;
* `readCommand` — the arguments behind the name of a command;
* `Invocation.ofArguments` — all arguments.
-/

import ScriptOutline.CommandLine

set_option relaxedAutoImplicit false
set_option autoImplicit false

namespace ScriptOutline

/-! ### Names -/

/-- The commands. -/
inductive CommandName where
  | outline
  | hover
  | lint
  deriving DecidableEq, Repr

/-- The command with a given name. -/
def CommandName.ofName? (s : String) : Option CommandName :=
  if s = "outline" || s = "ls" then some .outline
  else if s = "hover" then some .hover
  else if s = "lint" || s = "check" then some .lint
  else none

/-- The name that stands before the name of a command to ask for help on it. -/
def helpName : String := "help"

/-- Whether a word has a meaning of its own where the name of a command is expected. -/
def isCommandWord (s : String) : Bool :=
  (CommandName.ofName? s).isSome || s = helpName

/-- What can be set. -/
inductive Slot where
  | settings
  | format
  | line
  | column
  | path
  deriving DecidableEq, Repr

/-- What an argument with dashes can mean. -/
inductive Switch where
  | value (slot : Slot)
  | help
  | version
  deriving DecidableEq, Repr

/-- Whether something can be set by an option of a command, or before any command. -/
def allows (command : Option CommandName) : Slot → Bool
  | .settings => true
  | .format => command.isSome
  | .line | .column => command = some .hover
  | .path => false

/-- What a long name means without regard to commands. -/
def longName? (name : String) : Option Switch :=
  if name = "config" then some (.value .settings)
  else if name = "format" then some (.value .format)
  else if name = "line" then some (.value .line)
  else if name = "character" then some (.value .column)
  else if name = "help" then some .help
  else if name = "version" then some .version
  else none

/-- What a short name means without regard to commands. -/
def shortName? (c : Char) : Option Switch :=
  if c = 'c' then some (.value .settings)
  else if c = 'f' then some (.value .format)
  else if c = 'l' then some (.value .line)
  else if c = 'C' then some (.value .column)
  else if c = 'h' then some .help
  else if c = 'V' then some .version
  else none

/-- Whether an argument can have a meaning behind a command, or before any. -/
def Switch.isAllowed (command : Option CommandName) : Switch → Bool
  | .value slot => allows command slot
  | .help => true
  | .version => command.isNone

/-! ### Values -/

/-- What was set so far. -/
structure Values where
  settings : Option String := none
  path : Option String := none
  format : Option OutputFormat := none
  line : Option Nat := none
  column : Option Nat := none
  deriving DecidableEq, Repr

/-- A path has to name something. -/
def readPath (text : String) : Except UsageError String :=
  if text = "" then .error .badValue else .ok text

/-- A format is given by its name. -/
def readFormat (text : String) : Except UsageError OutputFormat :=
  match OutputFormat.ofName? text with
  | some format => .ok format
  | none => .error .badValue

/-- A number has digits, maybe after a plus, and lies between one and the largest of 64 bits. -/
def readNumber (text : String) : Except UsageError Nat :=
  let cs := text.toList
  let digits := if cs.head? = some '+' then cs.tail else cs
  let n := Json.natOfDigits digits
  if Json.isDigitRun digits && 1 ≤ n && n < UInt64.size then .ok n else .error .badNumber

/-- A value is set only once. -/
def once {α : Type} (old : Option α) (new : Except UsageError α) : Except UsageError (Option α) :=
  if old.isSome then .error .repeatedOption else new.map some

/-- The values with one more. -/
def Values.set (v : Values) (slot : Slot) (text : String) : Except UsageError Values :=
  match slot with
  | .settings => (once v.settings (readPath text)).map fun x => { v with settings := x }
  | .path => (once v.path (readPath text)).map fun x => { v with path := x }
  | .format => (once v.format (readFormat text)).map fun x => { v with format := x }
  | .line => (once v.line (readNumber text)).map fun x => { v with line := x }
  | .column => (once v.column (readNumber text)).map fun x => { v with column := x }

/-- A value that has to be there. -/
def demand {α : Type} : Option α → Except UsageError α
  | some a => .ok a
  | none => .error .missingArgument

/-- The question that values ask of a command. -/
def Values.query (v : Values) (command : CommandName) : Except UsageError Query := do
  let path ← demand v.path
  let format := v.format.getD .pretty
  match command with
  | .outline => return .outline path format
  | .lint => return .lint path format
  | .hover => return .hover path (← demand v.line) (v.column.getD 1) format

/-! ### Arguments -/

/-- A value that is not checked yet. -/
inductive Pending where
  | nothing
  /-- The next argument has to be the value. -/
  | awaited (slot : Slot)
  | given (slot : Slot) (text : String)
  deriving DecidableEq, Repr

/-- How far the arguments were read. -/
structure Reading where
  values : Values := {}
  pending : Pending := .nothing
  /-- Whether there was a path. -/
  hasPath : Bool := false
  /-- Whether only paths follow. -/
  onlyPaths : Bool := false
  deriving DecidableEq, Repr

namespace Reading

/-- The pending value is checked. -/
def settle (r : Reading) : Except UsageError Reading :=
  match r.pending with
  | .nothing => .ok r
  | .awaited _ => .error .badValue
  | .given slot text =>
    (r.values.set slot text).map fun values => { r with values, pending := .nothing }

/-- A value in the argument of its option is checked at once, but after the pending one. -/
def attach (r : Reading) (slot : Slot) (text : String) : Except UsageError Reading := do
  let r ← r.settle
  return { r with values := ← r.values.set slot text }

/-- The value of an option has to follow. -/
def await (r : Reading) (slot : Slot) : Except UsageError Reading := do
  let r ← r.settle
  return { r with pending := .awaited slot }

/-- Whether the next argument has to be a value, and then the reading with that value. -/
def supply? (r : Reading) (text : String) : Option Reading :=
  match r.pending with
  | .awaited slot => some { r with pending := .given slot text }
  | _ => none

/-- An argument stops the reading, after the pending value is checked. -/
def halt (r : Reading) (e : UsageError) : Except UsageError Reading := do
  let _ ← r.settle
  .error e

end Reading

/-- What an argument looks like. -/
inductive Argument where
  /-- Two dashes. -/
  | divider
  /-- A long name, and the value after an equals sign. -/
  | long (name : String) (value : Option String)
  /-- A short name, and what follows it. -/
  | short (name : Char) (rest : List Char)
  | word
  deriving DecidableEq, Repr

/-- What an argument looks like. -/
def Argument.of (text : String) : Argument :=
  match text.toList with
  | ['-', '-'] => .divider
  | '-' :: '-' :: cs =>
    let name := String.ofList (cs.takeWhile (· ≠ '='))
    match cs.dropWhile (· ≠ '=') with
    | [] => .long name none
    | _ :: value => .long name (some (String.ofList value))
  | '-' :: c :: rest => .short c rest
  | _ => .word

/-- An argument with a long name. -/
def readLong (command : Option CommandName) (r : Reading) (name : String) (value : Option String) :
    Except UsageError Reading :=
  match (longName? name).filter (·.isAllowed command), value with
  | none, _ => .error .unknownArgument
  | some (.value slot), none => r.await slot
  | some (.value slot), some text => r.attach slot text
  | some .help, none => r.halt .helpWanted
  | some .version, none => r.halt .versionWanted
  | some _, some _ => .error .unwantedValue

/-- An argument with a short name. -/
def readShort (command : Option CommandName) (r : Reading) (name : Char) (rest : List Char) :
    Except UsageError Reading :=
  match (shortName? name).filter (·.isAllowed command), rest with
  | none, _ => .error .unknownArgument
  | some (.value slot), [] => r.await slot
  | some (.value slot), '=' :: text => r.attach slot (String.ofList text)
  | some (.value slot), text => r.attach slot (String.ofList text)
  | some .help, _ => r.halt .helpWanted
  | some .version, _ => r.halt .versionWanted

/-- An argument behind a command that is no option and no value of one. -/
def readOperand (r : Reading) (text : String) : Except UsageError Reading :=
  if r.hasPath then .error .unknownArgument
  else do
    let r ← r.settle
    return { r with pending := .given .path text, hasPath := true }

/-- One argument behind the name of a command. -/
def readArgument (command : CommandName) (r : Reading) (text : String) :
    Except UsageError Reading :=
  if r.onlyPaths then readOperand r text
  else
    match Argument.of text with
    | .divider => .ok { r with onlyPaths := true }
    | .long name value => readLong (some command) r name value
    | .short name rest => readShort (some command) r name rest
    | .word =>
      match r.supply? text with
      | some next => .ok next
      | none => readOperand r text

/-- The values of the arguments behind the name of a command. -/
def readCommand (command : CommandName) (arguments : List String) : Except UsageError Values := do
  let r ← arguments.foldlM (readArgument command) {}
  return (← r.settle).values

/-- What is asked for by the arguments behind the word that asks for help. -/
def readHelp : List String → UsageError
  | [] => .helpWanted
  | [name] => if isCommandWord name then .helpWanted else .unknownCommand
  | _ => .unknownCommand

/-! ### The whole command line -/

/-- The question of a command, with the settings that it or what stood before it names. -/
def finish (before : Reading) (command : CommandName) (arguments : List String) :
    Except UsageError Invocation := do
  let values ← readCommand command arguments
  let query ← values.query command
  let outer := (← before.settle).values
  return ⟨values.settings <|> outer.settings, query⟩

/-- The question of the arguments that follow those that were read before the name of a command. -/
def readFrom (r : Reading) : List String → Except UsageError Invocation
  | [] => do
    let r ← r.settle
    .error (if r.values.settings.isSome then .missingCommand else .noArguments)
  | text :: rest =>
    if r.onlyPaths then .error (if isCommandWord text then .unknownArgument else .unknownCommand)
    else
      match Argument.of text with
      | .divider => readFrom { r with onlyPaths := true } rest
      | .long name value => do readFrom (← readLong none r name value) rest
      | .short name cs => do readFrom (← readShort none r name cs) rest
      | .word =>
        match r.supply? text, CommandName.ofName? text with
        | some next, _ => readFrom next rest
        | none, some command => finish r command rest
        | none, none => .error (if text = helpName then readHelp rest else .unknownCommand)

/-- The question that arguments ask. -/
def Invocation.ofArguments (arguments : List String) : Except UsageError Invocation :=
  readFrom {} arguments

end ScriptOutline
