/-
**Answering questions.**

The program reads its arguments and its settings, analyses the scripts that the question is about,
and writes a report.  Scripts that are too large are passed over.  A check that finds errors fails.

Main definitions:

* `Outcome` — an answer: the text that is written, and the code that the program ends with;
* `answerOutline`, `answerHover`, `answerLint` — the answers to the three questions;
* `answer` — the answer to any question;
* `Failure`, `execute` — the whole program, from its arguments on;
* `Ending`, `Ending.of` — what the caller of the program sees.
-/

import ScriptOutline.CommandLine.Reader
import ScriptOutline.Workspace

set_option relaxedAutoImplicit false
set_option autoImplicit false

namespace ScriptOutline

/-- An answer: the text that is written, and the code that the program ends with. -/
structure Outcome where
  exitCode : Nat
  output : String
  deriving DecidableEq, Repr

/-- The code of a question that is answered. -/
def exitSuccess : Nat := 0

/-- The code of a check that fails. -/
def exitFailed : Nat := 1

/-- The code of a question that has no answer. -/
def exitError : Nat := 2

/--
How the program runs: its settings, a way to answer requests, a clock, and whether it has colours.
-/
structure Context (δ : Type) where
  settings : Settings
  digest : String → δ
  clock : Nat → Nat
  color : Bool

variable {δ : Type} [DecidableEq δ]

namespace Context

/-- The session that the settings ask for. -/
def session (c : Context δ) : Session δ :=
  c.settings.session c.digest

/-- The request for a script that is read from a file; those have no version of their own. -/
def request (name text : String) : Request :=
  ⟨name, text, 0⟩

/-- The requests for scripts, without those that are too large. -/
def requests (c : Context δ) (sources : List (String × List UInt8)) : List Request :=
  sources.filterMap fun (name, bytes) => (c.settings.textOf? bytes).map (request name)

/-- The names of scripts with their routines. -/
def outlines (c : Context δ) (sources : List (String × List UInt8)) : List FileOutline :=
  let requests := c.requests sources
  let (routines, _) := c.session.analyzeAll c.clock requests
  List.zipWith (fun r found => ⟨r.document, found⟩) requests routines

end Context

/-! ### The three questions -/

/-- The outline of the scripts at a path. -/
def answerOutline (w : Workspace) (c : Context δ) (path : String) (format : OutputFormat) :
    Except RunError Outcome := do
  let sources ← w.sources c.settings path
  let report := OutlineReport.ofFiles (c.outlines sources)
  return ⟨exitSuccess, format.write c.color report.toJson report.pieces⟩

/-- The routine at a position of a file.  A file that is too large is taken to be empty. -/
def answerHover (w : Workspace) (c : Context δ) (path : String) (line column : Nat)
    (format : OutputFormat) : Except RunError Outcome := do
  match w.read path with
  | .error _ => .error (.notFile path)
  | .ok bytes =>
    let text := (c.settings.textOf? bytes).getD ""
    let (routine, _) :=
      c.session.analyzeAt (c.clock 0) (c.clock 1) (Context.request path text)
        ⟨line - 1, column - 1⟩
    let report := HoverReport.at path line column routine
    return ⟨exitSuccess, format.write c.color report.toJson report.pieces⟩

/-- The check of the scripts at a path. -/
def answerLint (w : Workspace) (c : Context δ) (path : String) (format : OutputFormat) :
    Except RunError Outcome := do
  let sources ← w.sources c.settings path
  let report := LintReport.ofFiles ((c.outlines sources).map fun f => check f.path f.routines)
  return ⟨if report.passed then exitSuccess else exitFailed,
    format.write c.color report.toJson report.pieces⟩

/-- The answer to a question. -/
def answer (w : Workspace) (c : Context δ) : Query → Except RunError Outcome
  | .outline path format => answerOutline w c path format
  | .hover path line column format => answerHover w c path line column format
  | .lint path format => answerLint w c path format

/-! ### The whole program -/

/-- Why the program has no answer. -/
inductive Failure where
  | usage (e : UsageError)
  | run (e : RunError)
  deriving DecidableEq, Repr

/-- The answer to the question that arguments ask. -/
def execute (w : Workspace) (digest : String → δ) (clock : Nat → Nat) (color : Bool)
    (arguments : List String) : Except Failure Outcome := do
  let invocation ← (Invocation.ofArguments arguments).mapError Failure.usage
  let settings ← (w.loadSettings invocation.settings).mapError Failure.run
  (answer w ⟨settings, digest, clock, color⟩ invocation.query).mapError Failure.run

/-- What the caller of the program sees: a code, a text, and maybe the report of an error. -/
structure Ending where
  exitCode : Nat
  output : String
  error : Option String
  deriving DecidableEq, Repr

/-- The text that explains the command line. -/
def helpText : String :=
  "Function metadata for AutoHotkey v2 scripts\n\n" ++
  "Usage: " ++ programName ++ " [-c FILE] outline PATH [-f pretty|json]\n" ++
  "       " ++ programName ++ " [-c FILE] hover FILE -l LINE [-C COLUMN] [-f pretty|json]\n" ++
  "       " ++ programName ++ " [-c FILE] lint PATH [-f pretty|json]\n"

/-- The text that names the version of the program. -/
def versionText : String :=
  programName ++ " " ++ programVersion ++ "\n"

/-- What the caller sees of an answer, or of why there is none. -/
def Ending.of : Except Failure Outcome → Ending
  | .ok outcome => ⟨outcome.exitCode, outcome.output, none⟩
  | .error (.usage .helpWanted) => ⟨exitSuccess, helpText, none⟩
  | .error (.usage .versionWanted) => ⟨exitSuccess, versionText, none⟩
  | .error (.usage _) => ⟨exitError, "", none⟩
  | .error (.run e) => ⟨exitError, "", some e.report⟩

end ScriptOutline
