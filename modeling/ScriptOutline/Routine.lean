/-
**Functions and methods of a script.**

A routine is all that the outline of a script tells about one function or method: how it is
declared, what arguments it takes, which variables its body has, where it lies and what its comment
says.

Main definitions:

* `BodyKind` — whether a body is a block or an expression;
* `Routine` — one function or method;
* `Routine.qualifiedName`, `Routine.signature` — how it is named and written;
* `Routine.parameter?`, `Routine.accepts` — its parameters by name, and its numbers of arguments;
* `routineAt?` — the innermost routine at a position.
-/

import ScriptOutline.Parameter
import ScriptOutline.Variable

set_option relaxedAutoImplicit false
set_option autoImplicit false

namespace ScriptOutline

/-- How a body is written. -/
inductive BodyKind where
  | block
  | arrow
  deriving DecidableEq, Repr

/-- A function or method of a script. -/
structure Routine where
  name : String
  parameters : List Parameter
  vars : Variables
  /-- The smallest number of arguments. -/
  minArgs : Nat
  maxArgs : ArgLimit
  returnType : Option String
  variadic : Bool
  span : Span
  documentation : Option String
  /-- The version of the text that the routine was found in. -/
  version : Int32
  bodyKind : BodyKind
  /-- The class that a method belongs to. -/
  className : Option String
  isStatic : Bool
  /-- Why the parameters could not be read. -/
  parseError : Option String
  deriving DecidableEq, Repr

namespace Routine

/-- A name after the class that it belongs to. -/
def qualified (r : Routine) (name : String) : String :=
  match r.className with
  | some className => className ++ "." ++ name
  | none => name

/-- The name of a routine, after that of its class. -/
def qualifiedName (r : Routine) : String :=
  r.qualified r.name

/-- A routine on one line, the way it could be declared. -/
def signature (r : Routine) : String :=
  r.name ++ "(" ++ String.intercalate ", " (r.parameters.map Parameter.label) ++ ")" ++
    match r.returnType with
    | some type => " -> " ++ type
    | none => ""

/-- The first parameter with a given name, in any case of the letters A to Z. -/
def parameter? (r : Routine) (name : String) : Option Parameter :=
  r.parameters.find? fun p => asciiLowercase p.name = asciiLowercase name

/-- Whether a call with a number of arguments keeps to both bounds. -/
def accepts (r : Routine) (args : Nat) : Bool :=
  r.minArgs ≤ args && r.maxArgs.admits args

end Routine

/-- The routine that starts last among those that hold a position. -/
def routineAt? (routines : List Routine) (p : Position) : Option Routine :=
  latest? (·.span.start) (routines.filter (·.span.contains p))

end ScriptOutline
