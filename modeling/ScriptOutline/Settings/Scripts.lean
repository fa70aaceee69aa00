/-
**The scripts that are analysed.**

Below a folder, the scripts are the files that no hidden folder hides, whose extension is one of the
set ones, and whose path from that folder on no set pattern covers.  They come in the order of their
paths, name by name.  A script is read leniently, without the marks of byte order before it, and not
at all if it is too large.

Main definitions:

* `precedes` — the order of locations;
* `Settings.scripts` — the scripts below a folder;
* `scriptText` — the text of a script;
* `Settings.textOf?` — the same, unless the script is too large;
* `shownName` — the name of a script in reports.
-/

import ScriptOutline.FileTree
import ScriptOutline.Settings.Paths
import ScriptOutline.Text.Utf8

set_option relaxedAutoImplicit false
set_option autoImplicit false

namespace ScriptOutline

/-- Whether the settings pick the file at a location below a folder. -/
def Settings.picks (s : Settings) (location : List String) : Bool :=
  s.isScript (joinSlashes location) && !s.excludes (joinSlashes location)

/-- The order of locations: name by name, and a folder before what is in it. -/
def precedes : List String → List String → Bool
  | [], _ => true
  | _ :: _, [] => false
  | a :: as, b :: bs => a < b || (a = b && precedes as bs)

/-- The scripts below a folder, with their locations and bytes, in the order of their locations. -/
def Settings.scripts (s : Settings) (t : FileTree) : List (List String × List UInt8) :=
  (t.visibleFiles.filter fun file => s.picks file.1).mergeSort fun a b => precedes a.1 b.1

/-- The text of a script. -/
def scriptText (bytes : List UInt8) : String :=
  String.ofList ((Utf8.decode bytes).dropWhile (· = '\uFEFF'))

/-- Whether a script is small enough to be analysed. -/
def Settings.admits (s : Settings) (bytes : List UInt8) : Bool :=
  bytes.length ≤ s.analysis.maxBytes.toNat

/-- The text of a script, unless it is too large. -/
def Settings.textOf? (s : Settings) (bytes : List UInt8) : Option String :=
  if s.admits bytes then some (scriptText bytes) else none

/-- The name of a script in reports: its location below a folder, with slashes only. -/
def shownName (location : List String) : String :=
  (joinSlashes location).map fun c => if c = '\\' then '/' else c

end ScriptOutline
