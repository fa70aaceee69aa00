/-
**Variables of a function body.**

A variable is static, global or local to the function.  It is reported where it is first declared,
with a hint at its type if its first value is a literal.

Main definitions:

* `Scope` — the three scopes, with their keywords;
* `Variable` — one variable;
* `Variables` — the variables of a body by scope.

Main results:

* `Scope.ofKeyword?_keyword` — the keyword of a scope stands for it.
-/

import ScriptOutline.Source.Position
import ScriptOutline.Text.Lowercase

set_option relaxedAutoImplicit false
set_option autoImplicit false

namespace ScriptOutline

/-- The scope of a variable. -/
inductive Scope where
  | static
  | local
  | global
  deriving DecidableEq, Repr

namespace Scope

/-- The keyword that declares variables of a scope. -/
def keyword : Scope → String
  | .static => "static"
  | .local => "local"
  | .global => "global"

/-- The scope that a keyword stands for, in any case of the letters A to Z. -/
def ofKeyword? (word : String) : Option Scope :=
  let word := asciiLowercase word
  if word = "static" then some .static
  else if word = "local" then some .local
  else if word = "global" then some .global
  else none

/-- The keyword of a scope stands for it. -/
theorem ofKeyword?_keyword (scope : Scope) : ofKeyword? scope.keyword = some scope := by
  cases scope <;> decide

end Scope

/-- A variable of a function body. -/
structure Variable where
  name : String
  scope : Scope
  hasInitializer : Bool
  /-- Where the name first stands. -/
  position : Position
  typeHint : Option String
  deriving DecidableEq, Repr

/-- The variables of a body by scope. -/
structure Variables where
  statics : List Variable
  locals : List Variable
  globals : List Variable
  deriving DecidableEq, Repr

namespace Variables

/-- No variable. -/
def empty : Variables :=
  ⟨[], [], []⟩

/-- The variables of a list by scope, in the order of the list. -/
def ofList (vars : List Variable) : Variables :=
  ⟨vars.filter (·.scope = .static), vars.filter (·.scope = .local),
    vars.filter (·.scope = .global)⟩

/-- All variables: static, global and then local ones. -/
def toList (v : Variables) : List Variable :=
  v.statics ++ v.globals ++ v.locals

end Variables

end ScriptOutline
