/-
**Findings as JSON values.**

Main definitions:

* `Finding.toJson` — a finding as a JSON value;
* `Finding.ofJson?` — the finding that a JSON value stands for.
-/

import ScriptOutline.Finding
import ScriptOutline.Json.Record

set_option relaxedAutoImplicit false
set_option autoImplicit false

namespace ScriptOutline.Finding

open Json (member count required? asString? asCount? asChoice?)

/-- A finding as a JSON value. -/
def toJson (f : Finding) : Json :=
  .object (
    member "rule" (.string f.rule.name) ++
    member "message" (.string f.message) ++
    member "file" (.string f.file) ++
    member "line" (count f.line) ++
    member "character" (count f.column) ++
    member "severity" (.string f.severity.name))

/-- The fields of a finding. -/
def keys : List String :=
  ["rule", "message", "file", "line", "character", "severity"]

/-- The finding that a JSON value stands for. -/
def ofJson? (v : Json) : Option Finding := do
  match ← v.fields? keys with
  | [rule, message, file, line, column, severity] =>
    return {
      rule := ← required? (asChoice? Rule.name Rule.all) rule
      message := ← required? asString? message
      file := ← required? asString? file
      line := ← required? asCount? line
      column := ← required? asCount? column
      severity := ← required? (asChoice? Severity.name Severity.all) severity }
  | _ => none

end ScriptOutline.Finding
