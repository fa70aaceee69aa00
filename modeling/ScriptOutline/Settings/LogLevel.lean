/-
**Levels of logging.**

How much the program tells about its own work, from everything to errors only.

Main definitions:

* `LogLevel` — the levels;
* `LogLevel.ofName?` — the level with a given name, in any case;
* `LogLevel.unknownMessage` — what is said of a name that stands for no level.
-/

import ScriptOutline.Text.Lowercase

set_option relaxedAutoImplicit false
set_option autoImplicit false

namespace ScriptOutline

/-- The levels of logging. -/
inductive LogLevel where
  | trace
  | debug
  | info
  | warn
  | error
  deriving DecidableEq, Repr

namespace LogLevel

/-- The name of a level. -/
def name : LogLevel → String
  | .trace => "trace"
  | .debug => "debug"
  | .info => "info"
  | .warn => "warn"
  | .error => "error"

/-- Every level. -/
def all : List LogLevel :=
  [.trace, .debug, .info, .warn, .error]

/-- The level with a given name, in any case; warnings may be spelled out. -/
def ofName? (s : String) : Option LogLevel :=
  let small := lowercase s
  if small = "warning" then some .warn else all.find? fun level => level.name = small

/-- What is said of a name that stands for no level. -/
def unknownMessage (s : String) : String :=
  "invalid log level: " ++ s ++ ". Use trace, debug, info, warn, or error"

end LogLevel

end ScriptOutline
