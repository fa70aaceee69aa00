/-
**Parameters of a declaration.**

A parameter has a name and may be taken by reference, be optional, carry a default value or a type
hint, or collect all further arguments.  A trailing collector needs no name and is then called `*`.

Main definitions:

* `DefaultValue` — a default value with its kind, constant or expression;
* `Parameter` — one parameter, with `Parameter.label`, the way it is written in a signature;
* `ArgLimit` — the largest number of arguments, if there is one;
* `requiredCount`, `argLimit` — the smallest and the largest number of arguments of a list of
  parameters.
-/

set_option relaxedAutoImplicit false
set_option autoImplicit false

namespace ScriptOutline

/-- Whether a default value is a literal or has to be evaluated at each call. -/
inductive DefaultKind where
  | constant
  | expression
  deriving DecidableEq, Repr

/-- The name of a kind of default value. -/
def DefaultKind.name : DefaultKind → String
  | .constant => "constant"
  | .expression => "expression"

/-- A default value: its kind and its text. -/
structure DefaultValue where
  kind : DefaultKind
  text : String
  deriving DecidableEq, Repr

/-- One parameter of a declaration. -/
structure Parameter where
  /-- The name, or `*` for a collector without a name. -/
  name : String
  byReference : Bool
  optional : Bool
  defaultValue : Option DefaultValue
  typeHint : Option String
  /-- Whether the parameter collects all further arguments. -/
  variadic : Bool
  /-- The place in the list of parameters, counted from zero. -/
  position : Nat
  deriving DecidableEq, Repr

namespace Parameter

/-- The name of a collector that has none of its own. -/
def anonymous : String := "*"

/-- A parameter that has nothing but a name. -/
def plain (name : String) (position : Nat) : Parameter :=
  ⟨name, false, false, none, none, false, position⟩

/-- Whether every call has to supply the parameter. -/
def isRequired (p : Parameter) : Bool :=
  !p.optional && p.defaultValue.isNone && !p.variadic

/-- What is written after the name and the type hint of a parameter. -/
def suffix (p : Parameter) : String :=
  if p.variadic then "*"
  else
    match p.defaultValue with
    | some value => " := " ++ value.text
    | none => if p.optional then "?" else ""

/-- A parameter the way it is written in a signature. -/
def label (p : Parameter) : String :=
  (if p.byReference then "&" else "") ++
    (if p.name = anonymous then "" else p.name) ++
    (match p.typeHint with
      | some hint => ": " ++ hint
      | none => "") ++
    p.suffix

end Parameter

/-! ### Numbers of arguments -/

/-- The largest number of arguments of a call. -/
inductive ArgLimit where
  | count (n : Nat)
  | variadic
  deriving DecidableEq, Repr

namespace ArgLimit

/-- The limit as a number, if there is one. -/
def count? : ArgLimit → Option Nat
  | .count n => some n
  | .variadic => none

/-- Whether a number of arguments keeps to the limit. -/
def admits : ArgLimit → Nat → Bool
  | .count n, args => args ≤ n
  | .variadic, _ => true

/-- A limit as it is displayed. -/
def display : ArgLimit → String
  | .count n => toString n
  | .variadic => "variadic"

end ArgLimit

/-- The number of required parameters before the first one that is not. -/
def requiredCount (parameters : List Parameter) : Nat :=
  (parameters.takeWhile Parameter.isRequired).length

/-- The limit on arguments: none if the last parameter collects them. -/
def argLimit (parameters : List Parameter) : ArgLimit :=
  match parameters.getLast? with
  | some last => if last.variadic then .variadic else .count parameters.length
  | none => .count parameters.length

end ScriptOutline
