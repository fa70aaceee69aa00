/-
**Settings.**

What a user can set: whether and for how long results are kept, which files are scripts and how
large they may be, how much is logged, and which paths are left out when folders are searched.
Everything has a default.

Main definitions:

* `CacheSettings`, `AnalysisSettings`, `LoggingSettings` — the groups of settings;
* `Settings` — all of them;
* `Settings.session` — the session that the settings ask for.
-/

import ScriptOutline.Session

set_option relaxedAutoImplicit false
set_option autoImplicit false

namespace ScriptOutline

/-- Whether results are kept, and for how long. -/
structure CacheSettings where
  enabled : Bool := true
  /-- How long a result is handed out, in seconds. -/
  seconds : UInt64 := 300
  deriving DecidableEq, Repr

/-- Which files are analysed. -/
structure AnalysisSettings where
  /-- The size above which a file is passed over. -/
  maxBytes : UInt64 := 4194304
  /-- The extensions of scripts, without a dot and in any case. -/
  extensions : List String := ["ahk", "ahk2"]
  deriving DecidableEq, Repr

/-- How much is logged, and whether that is done as JSON. -/
structure LoggingSettings where
  level : String := "warn"
  json : Bool := false
  deriving DecidableEq, Repr

/-- What a user can set. -/
structure Settings where
  cache : CacheSettings := {}
  analysis : AnalysisSettings := {}
  logging : LoggingSettings := {}
  /-- The patterns of the paths that are left out when folders are searched. -/
  excluded : List String := []
  deriving DecidableEq, Repr

namespace Settings

/-- How long results are kept, in milliseconds, unless they are not kept at all. -/
def lifetime? (s : Settings) : Option Nat :=
  if s.cache.enabled then some (1000 * s.cache.seconds.toNat) else none

/-- The session that the settings ask for, given a digest of texts. -/
def session {δ : Type} (s : Settings) (digest : String → δ) : Session δ :=
  ⟨digest, s.lifetime?.map Store.empty⟩

end Settings

end ScriptOutline
