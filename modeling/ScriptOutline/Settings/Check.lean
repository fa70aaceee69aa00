/-
**What can be wrong with settings.**

Settings that have the right form can still ask for what makes no sense: a level of logging that
does not exist, results that are kept for no time, no extension at all or one with a dot, a pattern
that cannot be read.  The first fault in this order is told.

Main definitions:

* `SettingsError` — the faults;
* `Settings.error?` — the first fault of settings, if there is one.
-/

import ScriptOutline.Settings.LogLevel
import ScriptOutline.Settings.Paths
import ScriptOutline.Text.Quoted

set_option relaxedAutoImplicit false
set_option autoImplicit false

namespace ScriptOutline

/-- What can be wrong with settings. -/
inductive SettingsError where
  | unknownLevel (level : String)
  /-- Results are kept, but for no time. -/
  | noLifetime
  | noExtensions
  /-- An extension is empty or starts with a dot. -/
  | badExtension (extension : String)
  | badPattern (pattern : String) (e : GlobError)
  deriving DecidableEq, Repr

/-- What is said of settings with a fault. -/
def SettingsError.message (e : SettingsError) : String :=
  "invalid config: " ++
    match e with
    | .unknownLevel level => LogLevel.unknownMessage level
    | .noLifetime => "cache.ttl_secs must be positive when the cache is enabled"
    | .noExtensions => "analysis.extensions must not be empty"
    | .badExtension extension =>
      "invalid extension " ++ quoted extension ++ ", expected a bare extension like \"ahk\""
    | .badPattern pattern e =>
      "invalid excluded_paths pattern " ++ quoted pattern ++ ": " ++ e.message pattern

namespace Settings

/-- Whether an extension stands without a dot before it, and is not empty. -/
def isBareExtension (extension : String) : Bool :=
  match extension.toList with
  | [] => false
  | c :: _ => c ≠ '.'

/-- The fault of a pattern, if it has one. -/
def patternError? (pattern : String) : Option SettingsError :=
  match Glob.ofText pattern with
  | .ok _ => none
  | .error e => some (.badPattern pattern e)

/-- The first fault of settings, if there is one. -/
def error? (s : Settings) : Option SettingsError :=
  if (LogLevel.ofName? s.logging.level).isNone then some (.unknownLevel s.logging.level)
  else if s.cache.enabled && s.cache.seconds = 0 then some .noLifetime
  else if s.analysis.extensions.isEmpty then some .noExtensions
  else
    match s.analysis.extensions.find? fun e => !isBareExtension e with
    | some extension => some (.badExtension extension)
    | none => s.excluded.findSome? patternError?

end Settings

end ScriptOutline
