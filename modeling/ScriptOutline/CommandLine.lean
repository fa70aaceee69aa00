/-
**What can be asked on the command line.**

The program answers three questions: it outlines the scripts at a path, it tells the routine at a
position of a file, and it checks the scripts at a path.  Answers are written for a reader or as
JSON.

Main definitions:

* `OutputFormat` — how an answer is written;
* `Query` — a question, `Invocation` — a question with the settings it is asked under;
* `UsageError` — why arguments are no question.
-/

import ScriptOutline.Report.Json
import ScriptOutline.Report.Pretty

set_option relaxedAutoImplicit false
set_option autoImplicit false

namespace ScriptOutline

/-- How an answer is written. -/
inductive OutputFormat where
  | pretty
  | json
  deriving DecidableEq, Repr

namespace OutputFormat

/-- The name of a format. -/
def name : OutputFormat → String
  | .pretty => "pretty"
  | .json => "json"

/-- The format with a given name. -/
def ofName? (s : String) : Option OutputFormat :=
  [pretty, json].find? fun format => format.name = s

/-- A report in a format; only what is written for a reader can have colours. -/
def write (format : OutputFormat) (color : Bool) (value : Json) (pieces : List Piece) : String :=
  match format with
  | .pretty => prettyText color pieces
  | .json => jsonText value

end OutputFormat

/-- A question about scripts.  Lines and columns count from one. -/
inductive Query where
  | outline (path : String) (format : OutputFormat)
  | hover (path : String) (line column : Nat) (format : OutputFormat)
  | lint (path : String) (format : OutputFormat)
  deriving DecidableEq, Repr

/-- A question, and the file that its settings are read from if it names one. -/
structure Invocation where
  settings : Option String
  query : Query
  deriving DecidableEq, Repr

/-- Why arguments are no question. -/
inductive UsageError where
  | noArguments
  | missingCommand
  | unknownCommand
  | unknownArgument
  | missingArgument
  | repeatedOption
  /-- A switch is given a value. -/
  | unwantedValue
  /-- A value is missing or is none of those that are possible. -/
  | badValue
  /-- A value is no number, or one that is too small or too large. -/
  | badNumber
  | helpWanted
  | versionWanted
  deriving DecidableEq, Repr

end ScriptOutline
