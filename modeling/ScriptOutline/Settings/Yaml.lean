/-
**Settings as YAML text.**

The file of a user's settings is written in YAML.  A file with nothing but blanks in it stands for
the default settings.

Main definitions:

* `Settings.ofYaml?` — the settings that a YAML value stands for;
* `Settings.ofText?` — the settings that a text stands for.
-/

import ScriptOutline.Settings.Format
import ScriptOutline.Text.Blank
import ScriptOutline.Yaml.Reader

set_option relaxedAutoImplicit false
set_option autoImplicit false

namespace ScriptOutline

/-- What YAML values offer to those who read settings. -/
instance : ValueFormat Yaml where
  record? := Yaml.record?
  list? := Yaml.asList?
  bool? := Yaml.asBool?
  count? := Yaml.asCount?
  text? := Yaml.asText?

namespace Settings

/-- The settings that a YAML value stands for. -/
def ofYaml? (v : Yaml) : Option Settings :=
  ValueFormat.settings? v

/-- The settings that a text stands for. -/
def ofText? (text : String) : Option Settings :=
  if text.toList.all isBlank then some {} else (Yaml.parse? text).bind ofYaml?

end Settings

end ScriptOutline
