/-
**Settings as JSON values.**

Settings can be read from a JSON value.  A group may also be given as an array of its settings, of
which the last ones may be missing; null stands for nothing.
-/

import ScriptOutline.Json.Record
import ScriptOutline.Settings.Format

set_option relaxedAutoImplicit false
set_option autoImplicit false

namespace ScriptOutline

/-- What JSON values offer to those who read settings. -/
instance : ValueFormat Json where
  record? := Json.record?
  list? := Json.asList? some
  bool? := Json.asBool?
  count? v := (Json.asCount? v).map UInt64.ofNat
  text? := Json.asString?

/-- The settings that a JSON value stands for. -/
def Settings.ofJson? (v : Json) : Option Settings :=
  ValueFormat.settings? v

end ScriptOutline
