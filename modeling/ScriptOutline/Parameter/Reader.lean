/-
**Reading a list of parameters.**

The list is cut at the commas of the code that stand outside of brackets.  A segment is read as
`&name: hint := value`, where everything but the name may be missing, a star makes the parameter a
collector and a question mark makes it optional, and a single equals sign may stand for `:=`.

Main definitions:

* `bracketStep`, `splitSegments` — cutting at the commas outside of brackets;
* `splitDefault`, `stripMarkers` — the parts of a segment;
* `ParameterError`, `ParameterError.message` — what can be wrong with a list;
* `Parameter.read`, `readParameters` — one parameter, and a whole list.
-/

import ScriptOutline.Parameter.Literal
import ScriptOutline.Text.Quoted

set_option relaxedAutoImplicit false
set_option autoImplicit false

namespace ScriptOutline

/-! ### Segments -/

/-- The number of open brackets after a cell: a stray closing bracket leaves none open. -/
def bracketStep (depth : Nat) (c : Cell) : Nat :=
  if c.isOpener then depth + 1 else if c.isCloser then depth - 1 else depth

/-- The pieces of a run of cells between the commas outside of brackets, `depth` being open. -/
def segmentsFrom (depth : Nat) : List Cell → List (List Cell)
  | [] => [[]]
  | c :: rest =>
    if depth = 0 && c.isCodeChar ',' then [] :: segmentsFrom 0 rest
    else
      match segmentsFrom (bracketStep depth c) rest with
      | [] => [[c]]
      | segment :: segments => (c :: segment) :: segments

/-- The pieces of a run of cells between the commas outside of brackets, as texts. -/
def splitSegments (cells : List Cell) : List (List Char) :=
  (segmentsFrom 0 cells).map (·.map Cell.char)

/-! ### The parts of a segment -/

/-- The texts before and after the first `:=`. -/
def splitAssign? : List Char → Option (List Char × List Char)
  | [] => none
  | [_] => none
  | c :: d :: rest =>
    if c = ':' && d = '=' then some ([], rest)
    else (splitAssign? (d :: rest)).map fun (before, after) => (c :: before, after)

/-- Whether an equals sign between two characters is part of another operator. -/
def isCompound (before after : Option Char) : Bool :=
  before.any (fun c => c = '!' || c = '<' || c = '>' || c = '=' || c = ':')
    || after.any (fun c => c = '=' || c = '>')

/-- The texts before and after the first plain equals sign that no quote comes before. -/
def splitEquals? (before : Option Char) : List Char → Option (List Char × List Char)
  | [] => none
  | c :: rest =>
    if c = '"' || c = '\'' then none
    else if c = '=' && !isCompound before rest.head? then some ([], rest)
    else (splitEquals? (some c) rest).map fun (left, right) => (c :: left, right)

/-- A segment cut into what is declared and the text of the default value. -/
def splitDefault (cs : List Char) : List Char × Option (List Char) :=
  match splitAssign? cs with
  | some (declared, value) => (declared, some (trim value))
  | none =>
    match splitEquals? none cs with
    | some (declared, value) => (declared, some (trim value))
    | none => (cs, none)

/-- The texts before and after the first colon. -/
def splitColon? : List Char → Option (List Char × List Char)
  | [] => none
  | c :: rest =>
    if c = ':' then some ([], rest)
    else (splitColon? rest).map fun (before, after) => (c :: before, after)

/-- The markers that may stand after a name or a type hint. -/
structure Markers where
  variadic : Bool
  optional : Bool
  deriving DecidableEq, Repr

namespace Markers

/-- No marker. -/
def none : Markers :=
  ⟨false, false⟩

/-- The markers of two places. -/
def union (a b : Markers) : Markers :=
  ⟨a.variadic || b.variadic, a.optional || b.optional⟩

end Markers

/-- The markers and blanks at the start of a text that is written backwards, and what is left. -/
def stripBackwards : List Char → List Char × Markers
  | [] => ([], Markers.none)
  | c :: rest =>
    if isBlank c then stripBackwards rest
    else if c = '*' then
      let (left, markers) := stripBackwards rest
      (left, { markers with variadic := true })
    else if c = '?' then
      let (left, markers) := stripBackwards rest
      (left, { markers with optional := true })
    else (c :: rest, Markers.none)

/-- A text without the markers and blanks at its end, and those markers. -/
def stripMarkers (cs : List Char) : List Char × Markers :=
  let (left, markers) := stripBackwards cs.reverse
  (left.reverse, markers)

/-- A text without the ampersand it may start with, and whether it had one. -/
def stripReference : List Char → List Char × Bool
  | '&' :: rest => (trimStart rest, true)
  | cs => (cs, false)

/-! ### Errors -/

/-- What can be wrong with a list of parameters. -/
inductive ParameterError where
  | empty (position : Nat)
  | emptyHint (position : Nat)
  | invalidName (name : String)
  | missingDefault (name : String)
  | variadicDefault (name : String)
  | variadicNotLast (name : String)
  deriving DecidableEq, Repr

/-- The wording of an error. -/
def ParameterError.message : ParameterError → String
  | .empty position => "empty parameter at position " ++ toString position
  | .emptyHint position => "empty type annotation at position " ++ toString position
  | .invalidName name => "invalid parameter name " ++ quoted name
  | .missingDefault name => "missing default value for " ++ quoted name
  | .variadicDefault name => "variadic parameter " ++ quoted name ++ " cannot have a default"
  | .variadicNotLast name => "variadic parameter " ++ quoted name ++ " must be last"

/-! ### Reading -/

/-- What stands before the default value: the name, the type hint and the markers of both. -/
def readDeclared (position : Nat) (cs : List Char) :
    Except ParameterError (List Char × Option (List Char) × Markers) :=
  let (declared, markers) := stripMarkers cs
  match splitColon? declared with
  | none => .ok (trim declared, none, markers)
  | some (before, after) =>
    let hint := trim after
    if hint.isEmpty then .error (.emptyHint position)
    else
      let (name, more) := stripMarkers before
      .ok (trim name, some hint, markers.union more)

/-- The name of a parameter: an identifier, or nothing for a collector. -/
def readName (name : List Char) (variadic : Bool) : Except ParameterError String :=
  if name.isEmpty && variadic then .ok Parameter.anonymous
  else if isIdentifier name then .ok (String.ofList name)
  else .error (.invalidName (String.ofList name))

/-- The default value of a parameter, if it has one. -/
def readDefault (name : String) (variadic : Bool) :
    Option (List Char) → Except ParameterError (Option DefaultValue)
  | none => .ok none
  | some value =>
    if value.isEmpty then .error (.missingDefault name)
    else if variadic then .error (.variadicDefault name)
    else .ok (some (DefaultValue.ofText value))

/-- The parameter that a segment declares at a place of the list. -/
def Parameter.read (position : Nat) (segment : List Char) : Except ParameterError Parameter := do
  let text := trim segment
  if text.isEmpty then .error (.empty position)
  else
    let (declared, value) := splitDefault text
    let (declared, byReference) := stripReference (trim declared)
    let (name, hint, markers) ← readDeclared position declared
    let name ← readName name markers.variadic
    let value ← readDefault name markers.variadic value
    return {
      name
      byReference
      optional := markers.optional || value.isSome
      defaultValue := value
      typeHint := hint.map String.ofList
      variadic := markers.variadic
      position }

/-- The parameters that segments declare, the first of them at a given place. -/
def readSegments (position : Nat) : List (List Char) → Except ParameterError (List Parameter)
  | [] => .ok []
  | segment :: rest => do
    let parameter ← Parameter.read position segment
    let parameters ← readSegments (position + 1) rest
    return parameter :: parameters

/-- The last collector among the parameters before the last one. -/
def misplacedVariadic? (parameters : List Parameter) : Option Parameter :=
  parameters.reverse.tail.find? Parameter.variadic

/-- The parameters of a list, from the cells between its parentheses. -/
def readParameters (cells : List Cell) : Except ParameterError (List Parameter) := do
  let segments := splitSegments cells
  if segments.length = 1 && segments.all (fun segment => (trim segment).isEmpty) then return []
  else
    let parameters ← readSegments 0 segments
    match misplacedVariadic? parameters with
    | some parameter => .error (.variadicNotLast parameter.name)
    | none => return parameters

end ScriptOutline
