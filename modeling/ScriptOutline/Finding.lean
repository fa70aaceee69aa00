/-
**Findings about the routines of a script.**

A finding says which rule a routine breaks, where the routine starts, and how grave that is.

Main definitions:

* `Severity` — how grave a finding is;
* `Rule` — the rules, with their severities;
* `Finding` — one finding.
-/

import ScriptOutline.Text.Lowercase

set_option relaxedAutoImplicit false
set_option autoImplicit false

namespace ScriptOutline

/-- How grave a finding is. -/
inductive Severity where
  | error
  | warning
  | info
  deriving DecidableEq, Repr

namespace Severity

/-- The name of a severity. -/
def name : Severity → String
  | .error => "error"
  | .warning => "warning"
  | .info => "info"

/-- Every severity. -/
def all : List Severity :=
  [.error, .warning, .info]

/-- The severity with a given name, in any case. -/
def ofName? (s : String) : Option Severity :=
  all.find? fun severity => severity.name = lowercase s

/-- What is said of a name that stands for no severity. -/
def unknownMessage (s : String) : String :=
  "unknown severity: " ++ s

end Severity

/-- The rules that routines are checked by. -/
inductive Rule where
  | duplicateFunction
  | duplicateParameter
  | malformedSignature
  deriving DecidableEq, Repr

namespace Rule

/-- The name of a rule. -/
def name : Rule → String
  | .duplicateFunction => "duplicate_function"
  | .duplicateParameter => "duplicate_parameter"
  | .malformedSignature => "malformed_signature"

/-- Every rule. -/
def all : List Rule :=
  [.duplicateFunction, .duplicateParameter, .malformedSignature]

/-- The rule with a given name. -/
def ofName? (s : String) : Option Rule :=
  all.find? fun rule => rule.name = s

/-- How grave it is to break a rule. -/
def severity : Rule → Severity
  | .duplicateFunction | .duplicateParameter => .error
  | .malformedSignature => .warning

end Rule

/-- One finding. -/
structure Finding where
  rule : Rule
  message : String
  file : String
  /-- The line, counted from one. -/
  line : Nat
  /-- The column, counted from one. -/
  column : Nat
  severity : Severity
  deriving DecidableEq, Repr

end ScriptOutline
