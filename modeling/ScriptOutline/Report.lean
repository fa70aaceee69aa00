/-
**Reports.**

Three reports answer the three questions about scripts: which routines some files declare, which
routine stands at a position, and what is wrong with the routines of some files.

Main definitions:

* `programName`, `programVersion` — what reports say of the program;
* `FileOutline`, `OutlineReport` — the routines of files;
* `HoverReport` — the routine at a position;
* `LintReport` — the findings about files.

Main results:

* `LintReport.passed_ofFiles` — a check passes if it finds no error.
-/

import ScriptOutline.Finding.Check
import ScriptOutline.Routine

set_option relaxedAutoImplicit false
set_option autoImplicit false

namespace ScriptOutline

/-- The name of the program. -/
def programName : String := "ahkmeta"

/-- The version of the program. -/
def programVersion : String := "0.1.0"

/-- The routines of a file. -/
structure FileOutline where
  path : String
  routines : List Routine
  deriving DecidableEq, Repr

/-- The routines of some files. -/
structure OutlineReport where
  version : String
  filesScanned : Nat
  files : List FileOutline
  deriving DecidableEq, Repr

namespace OutlineReport

/-- The report on some files. -/
def ofFiles (files : List FileOutline) : OutlineReport :=
  ⟨programVersion, files.length, files⟩

/-- The number of routines in all files. -/
def routineCount (r : OutlineReport) : Nat :=
  (r.files.flatMap FileOutline.routines).length

end OutlineReport

/-- The routine at a position of a file; lines and columns count from one. -/
structure HoverReport where
  version : String
  path : String
  line : Nat
  column : Nat
  routine : Option Routine
  deriving DecidableEq, Repr

/-- The report on a position of a file. -/
def HoverReport.at (path : String) (line column : Nat) (routine : Option Routine) : HoverReport :=
  ⟨programVersion, path, line, column, routine⟩

/-- The findings about some files. -/
structure LintReport where
  version : String
  filesScanned : Nat
  passed : Bool
  errors : Nat
  warnings : Nat
  findings : List Finding
  deriving DecidableEq, Repr

namespace LintReport

/-- The number of findings of a severity. -/
def countOf (severity : Severity) (findings : List Finding) : Nat :=
  findings.countP (·.severity = severity)

/-- The report on some files, given the findings about each of them. -/
def ofFiles (files : List (List Finding)) : LintReport :=
  let findings := files.flatten
  { version := programVersion
    filesScanned := files.length
    passed := !findings.any (·.severity = .error)
    errors := countOf .error findings
    warnings := countOf .warning findings
    findings }

/-- A check passes if it finds no error. -/
theorem passed_ofFiles (files : List (List Finding)) :
    (ofFiles files).passed = true ↔ (ofFiles files).errors = 0 := by
  simp only [ofFiles, countOf]
  generalize files.flatten = findings
  simp [List.countP_eq_zero]

end LintReport

end ScriptOutline
