/-
**Reports for a reader.**

The layout of the three reports on a terminal, as pieces of text with styles.

Main definitions:

* `arity` — the numbers of arguments in brackets;
* `linesOfText` — the lines of a text as they are shown;
* `OutlineReport.pieces`, `HoverReport.pieces`, `LintReport.pieces` — the layout of each report;
* `prettyText` — pieces as the text of a report.
-/

import ScriptOutline.Report
import ScriptOutline.Report.Style
import ScriptOutline.Source

set_option relaxedAutoImplicit false
set_option autoImplicit false

namespace ScriptOutline

open Piece (plain styled newline)

/-- Pieces as the text of a report. -/
def prettyText (color : Bool) (pieces : List Piece) : String :=
  String.ofList (renderPieces color pieces)

/-! ### Parts of reports -/

/-- The lines of a text; a line break at its end starts no further line. -/
def linesOfText (s : String) : List String :=
  let lines := splitBreaks s.toList
  let shown := if lines.getLast? = some [] then lines.dropLast.map dropReturn else
    lines.dropLast.map dropReturn ++ lines.getLast?.toList
  shown.map String.ofList

/-- The numbers of arguments of a routine, in brackets. -/
def arity (r : Routine) : String :=
  match r.maxArgs with
  | .count n =>
    if n = r.minArgs then "[" ++ toString n ++ "]"
    else "[" ++ toString r.minArgs ++ ".." ++ toString n ++ "]"
  | .variadic => "[" ++ toString r.minArgs ++ "..]"

/-- The signature of a routine after the name of its class. -/
def qualifiedSignature (r : Routine) : String :=
  r.qualified r.signature

/-- The lines that reports on files start with. -/
def headerPieces : List Piece :=
  [newline, plain "  ", styled .title programName, plain (" v" ++ programVersion), newline, newline]

/-! ### Outlines -/

/-- The indentation of what is said of a routine below its first line. -/
def detailIndent : String := "             "

/-- The names of variables of a scope, if there are any. -/
def scopeSummary (label : String) (vars : List Variable) : List String :=
  if vars.isEmpty then []
  else [label ++ ": " ++ String.intercalate ", " (vars.map Variable.name)]

/-- The line with the names of all variables, if there are any. -/
def variablePieces (v : Variables) : List Piece :=
  let parts := scopeSummary "static" v.statics ++ scopeSummary "global" v.globals ++
    scopeSummary "local" v.locals
  if parts.isEmpty then []
  else [plain detailIndent, styled .dimmed (String.intercalate "  " parts), newline]

/-- The lines about a routine in an outline. -/
def routinePieces (r : Routine) : List Piece :=
  let place := toString (r.span.start.line + 1) ++ ":" ++ toString (r.span.start.column + 1)
  [plain "    ", styled .dimmed (padRight 8 place), plain " ", styled .bold (qualifiedSignature r),
    plain "  ", styled .dimmed (arity r)] ++
  (if r.isStatic then [plain " ", styled .dimmed "static"] else []) ++
  [newline] ++
  (match r.parseError with
    | some error =>
      [plain detailIndent, styled .yellow "!", plain " ", styled .yellow error, newline]
    | none => []) ++
  (match r.documentation.bind fun text => (linesOfText text).head? with
    | some summary => [plain detailIndent, styled .dimmed summary, newline]
    | none => []) ++
  variablePieces r.vars

/-- The lines about a file in an outline. -/
def FileOutline.pieces (f : FileOutline) : List Piece :=
  let count := f.routines.length
  let plural := if count = 1 then "" else "s"
  [plain "  ", styled .blue f.path, plain "  ",
    styled .dimmed ("(" ++ toString count ++ " function" ++ plural ++ ")"), newline, newline] ++
  f.routines.flatMap routinePieces ++
  (if f.routines.isEmpty then [] else [newline])

/-- The layout of an outline. -/
def OutlineReport.pieces (r : OutlineReport) : List Piece :=
  headerPieces ++ r.files.flatMap FileOutline.pieces ++
  [plain "  ",
    styled .dimmed
      (toString r.routineCount ++ " functions in " ++ toString r.filesScanned ++ " files"),
    newline]

/-! ### A routine at a position -/

/-- What is said of a parameter besides its name. -/
def parameterFlags (p : Parameter) : List String :=
  (if p.byReference then ["byref"] else []) ++
  (if p.variadic then ["variadic"] else if p.optional then ["optional"] else []) ++
  (match p.defaultValue with
    | some value => [value.kind.name ++ " default " ++ value.text]
    | none => [])

/-- The lines about the parameters of a routine. -/
def parameterPieces (parameters : List Parameter) : List Piece :=
  if parameters.isEmpty then []
  else
    [newline, plain "  ", styled .bold "Parameters:", newline] ++
    parameters.flatMap fun p =>
      [plain ("    " ++ padRight 16 p.name ++ " "),
        styled .dimmed (String.intercalate ", " (parameterFlags p)), newline]

/-- The lines about the variables of a routine. -/
def variableListPieces (vars : List Variable) : List Piece :=
  if vars.isEmpty then []
  else
    [newline, plain "  ", styled .bold "Variables:", newline] ++
    vars.flatMap fun v =>
      [plain ("    " ++ padRight 16 v.name ++ " "), styled .dimmed (padRight 7 v.scope.keyword),
        plain " ", styled .dimmed (v.typeHint.getD ""), newline]

/-- The layout of a report on a position. -/
def HoverReport.pieces (r : HoverReport) : List Piece :=
  match r.routine with
  | none =>
    [plain "  ",
      styled .dimmed
        ("no function at " ++ r.path ++ ":" ++ toString r.line ++ ":" ++ toString r.column),
      newline]
  | some f =>
    [newline, plain "  ", styled .bold (qualifiedSignature f), newline, plain "  ",
      styled .dimmed (r.path ++ ":" ++ f.span.display ++ "  " ++ arity f), newline] ++
    (match f.documentation with
      | some text =>
        newline :: (linesOfText text).flatMap fun line => [plain ("  " ++ line), newline]
      | none => []) ++
    parameterPieces f.parameters ++
    variableListPieces f.vars.toList ++
    [newline]

/-! ### Findings -/

/-- The tag of a severity. -/
def severityPiece : Severity → Piece
  | .error => styled .red "ERROR"
  | .warning => styled .yellow "WARN "
  | .info => styled .blue "INFO "

/-- The lines about a finding. -/
def findingPieces (f : Finding) : List Piece :=
  [plain "    ", severityPiece f.severity, plain " ", plain "   ",
    styled .dimmed (padRight 22 f.rule.name), styled .blue f.file,
    styled .dimmed (":" ++ toString f.line ++ ":" ++ toString f.column), newline,
    plain ("            " ++ f.message), newline, newline]

/-- The layout of a report on findings. -/
def LintReport.pieces (r : LintReport) : List Piece :=
  headerPieces ++
  [plain "  ", if r.passed then styled .green "✓ PASS" else styled .red "✗ FAIL",
    plain ("  " ++ toString r.errors ++ " errors, " ++ toString r.warnings ++ " warnings in " ++
      toString r.filesScanned ++ " files"),
    newline, newline] ++
  (if r.findings.isEmpty then []
    else
      [plain "  ", styled .bold "Diagnostics",
        plain (" (" ++ toString r.findings.length ++ "):"), newline, newline] ++
      r.findings.flatMap findingPieces)

end ScriptOutline
