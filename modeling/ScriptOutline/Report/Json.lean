/-
**Reports as JSON text.**

A report is written as one JSON value on lines of its own, and can be read back from it.

Main definitions:

* `OutlineReport.toJson`, `HoverReport.toJson`, `LintReport.toJson` — reports as JSON values;
* `OutlineReport.ofJson?`, `HoverReport.ofJson?`, `LintReport.ofJson?` — reading them back;
* `jsonText` — a JSON value as the text of a report.
-/

import ScriptOutline.Finding.Json
import ScriptOutline.Json.Reader
import ScriptOutline.Report
import ScriptOutline.Routine.Json

set_option relaxedAutoImplicit false
set_option autoImplicit false

namespace ScriptOutline

open Json (member count orNull required? optional? asString? asBool? asCount? asList?)

/-- A JSON value as the text of a report. -/
def jsonText (v : Json) : String :=
  v.render ++ "\n"

namespace FileOutline

/-- The routines of a file as a JSON value. -/
def toJson (f : FileOutline) : Json :=
  .object (
    member "path" (.string f.path) ++
    member "functions" (.array (f.routines.map Routine.toJson)))

/-- The routines of a file that a JSON value stands for. -/
def ofJson? (v : Json) : Option FileOutline := do
  match ← v.fields? ["path", "functions"] with
  | [path, routines] =>
    return {
      path := ← required? asString? path
      routines := ← required? (asList? Routine.ofJson?) routines }
  | _ => none

end FileOutline

namespace OutlineReport

/-- A report on the routines of files as a JSON value. -/
def toJson (r : OutlineReport) : Json :=
  .object (
    member "version" (.string r.version) ++
    member "files_scanned" (count r.filesScanned) ++
    member "files" (.array (r.files.map FileOutline.toJson)))

/-- The report on the routines of files that a JSON value stands for. -/
def ofJson? (v : Json) : Option OutlineReport := do
  match ← v.fields? ["version", "files_scanned", "files"] with
  | [version, filesScanned, files] =>
    return {
      version := ← required? asString? version
      filesScanned := ← required? asCount? filesScanned
      files := ← required? (asList? FileOutline.ofJson?) files }
  | _ => none

end OutlineReport

namespace HoverReport

/-- A report on a position as a JSON value. -/
def toJson (r : HoverReport) : Json :=
  .object (
    member "version" (.string r.version) ++
    member "path" (.string r.path) ++
    member "line" (count r.line) ++
    member "character" (count r.column) ++
    member "function" (orNull Routine.toJson r.routine))

/-- The report on a position that a JSON value stands for. -/
def ofJson? (v : Json) : Option HoverReport := do
  match ← v.fields? ["version", "path", "line", "character", "function"] with
  | [version, path, line, column, routine] =>
    return {
      version := ← required? asString? version
      path := ← required? asString? path
      line := ← required? asCount? line
      column := ← required? asCount? column
      routine := ← optional? Routine.ofJson? routine }
  | _ => none

end HoverReport

namespace LintReport

/-- A report on findings as a JSON value. -/
def toJson (r : LintReport) : Json :=
  .object (
    member "version" (.string r.version) ++
    member "files_scanned" (count r.filesScanned) ++
    member "passed" (.bool r.passed) ++
    member "errors" (count r.errors) ++
    member "warnings" (count r.warnings) ++
    member "diagnostics" (.array (r.findings.map Finding.toJson)))

/-- The report on findings that a JSON value stands for. -/
def ofJson? (v : Json) : Option LintReport := do
  match ← v.fields? ["version", "files_scanned", "passed", "errors", "warnings", "diagnostics"] with
  | [version, filesScanned, passed, errors, warnings, findings] =>
    return {
      version := ← required? asString? version
      filesScanned := ← required? asCount? filesScanned
      passed := ← required? asBool? passed
      errors := ← required? asCount? errors
      warnings := ← required? asCount? warnings
      findings := ← required? (asList? Finding.ofJson?) findings }
  | _ => none

end LintReport

end ScriptOutline
