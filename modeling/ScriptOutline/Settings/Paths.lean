/-
**Which paths the settings pick.**

A path belongs to a script if its extension is one of the set ones, in any case of its ASCII
letters.  It is left out if one of the set patterns covers it; a pattern that cannot be read covers
nothing.

Main definitions:

* `Settings.isScript` — whether a path belongs to a script;
* `Settings.excludes` — whether a path is left out.
-/

import ScriptOutline.Glob.Reader
import ScriptOutline.Path
import ScriptOutline.Settings

set_option relaxedAutoImplicit false
set_option autoImplicit false

namespace ScriptOutline

/-- Whether a pattern, given as a text, covers a path. -/
def isCovered (path pattern : String) : Bool :=
  match Glob.ofText pattern with
  | .ok glob => glob.covers path
  | .error _ => false

namespace Settings

/-- Whether a path belongs to a script. -/
def isScript (s : Settings) (path : String) : Bool :=
  match extension? path.toList with
  | some extension =>
    s.analysis.extensions.any fun e =>
      asciiLowercaseChars e.toList = asciiLowercaseChars extension
  | none => false

/-- Whether a path is left out. -/
def excludes (s : Settings) (path : String) : Bool :=
  s.excluded.any (isCovered path)

end Settings

end ScriptOutline
