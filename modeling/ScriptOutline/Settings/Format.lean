/-
**Reading settings from values.**

Settings are written in more than one format of values.  What a format has to offer is little:
records, lists, truth values, counts and texts.  A group or a setting that is not given
keeps its default; one that is given has to be of the right kind.

Main definitions:

* `ValueFormat` — what a format of values offers;
* `ValueFormat.settings?` — the settings that a value stands for.
-/

import ScriptOutline.Record
import ScriptOutline.Settings

set_option relaxedAutoImplicit false
set_option autoImplicit false

namespace ScriptOutline

/-- What a format of values offers to those who read settings from it. -/
class ValueFormat (ν : Type) where
  record? : ν → Option (Record ν)
  list? : ν → Option (List ν)
  bool? : ν → Option Bool
  /-- A count that fits 64 bits. -/
  count? : ν → Option UInt64
  text? : ν → Option String

namespace ValueFormat

variable {ν : Type} [ValueFormat ν]

/-- What a field stands for, or a default where it is not given. -/
def withDefault? {α : Type} (read : ν → Option α) (value : α) : Option ν → Option α
  | none => some value
  | some v => read v

/-- The values of fields of which the last ones may be missing. -/
def fields? (keys : List String) (v : ν) : Option (List (Option ν)) :=
  (record? v).bind (Record.leadingFields? keys)

/-- A list of texts. -/
def texts? (v : ν) : Option (List String) :=
  (list? v).bind fun items => items.mapM text?

/-- The settings of the cache. -/
def cacheSettings? (v : ν) : Option CacheSettings := do
  match ← fields? ["enabled", "ttl_secs"] v with
  | [enabled, seconds] =>
    let standard : CacheSettings := {}
    return {
      enabled := ← withDefault? bool? standard.enabled enabled
      seconds := ← withDefault? count? standard.seconds seconds }
  | _ => none

/-- The settings of the analysis. -/
def analysisSettings? (v : ν) : Option AnalysisSettings := do
  match ← fields? ["max_file_bytes", "extensions"] v with
  | [maxBytes, extensions] =>
    let standard : AnalysisSettings := {}
    return {
      maxBytes := ← withDefault? count? standard.maxBytes maxBytes
      extensions := ← withDefault? texts? standard.extensions extensions }
  | _ => none

/-- The settings of logging. -/
def loggingSettings? (v : ν) : Option LoggingSettings := do
  match ← fields? ["level", "json"] v with
  | [level, json] =>
    let standard : LoggingSettings := {}
    return {
      level := ← withDefault? text? standard.level level
      json := ← withDefault? bool? standard.json json }
  | _ => none

/-- The settings that a value stands for. -/
def settings? (v : ν) : Option Settings := do
  match ← fields? ["cache", "analysis", "logging", "excluded_paths"] v with
  | [cache, analysis, logging, excluded] =>
    return {
      cache := ← withDefault? cacheSettings? {} cache
      analysis := ← withDefault? analysisSettings? {} analysis
      logging := ← withDefault? loggingSettings? {} logging
      excluded := ← withDefault? texts? [] excluded }
  | _ => none

end ValueFormat

end ScriptOutline
