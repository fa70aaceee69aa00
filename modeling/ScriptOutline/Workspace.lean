/-
**Where the program runs.**

The program sees a tree of files, works in one of its folders, and finds the settings of its user
in a file that is named, in the folder it works in, or in the user's folder for settings.

Main definitions:

* `Workspace` — a tree of files, with these two folders;
* `Workspace.loadSettings` — the settings that apply;
* `Workspace.sources` — the scripts that a path stands for;
* `RunError` — why a question has no answer.
-/

import ScriptOutline.Settings.Check
import ScriptOutline.Settings.Scripts
import ScriptOutline.Settings.Yaml

set_option relaxedAutoImplicit false
set_option autoImplicit false

namespace ScriptOutline

/-- A tree of files, the folder where relative paths start, and the user's folder for settings. -/
structure Workspace where
  files : FileTree
  folder : List String
  settingsFolder : List String

/-- Why a question has no answer. -/
inductive RunError where
  | unreadableSettings (path : String) (e : FileError)
  /-- A file of settings is not of the right form. -/
  | malformedSettings (path : String)
  | invalidSettings (e : SettingsError)
  | unreachable (path : String) (e : FileError)
  | notFile (path : String)
  deriving DecidableEq, Repr

namespace RunError

/-- What is said where a question has no answer. -/
def message : RunError → String
  | .unreadableSettings path e => "failed to read config " ++ path ++ ": " ++ e.message
  | .malformedSettings path => "failed to parse config " ++ path
  | .invalidSettings e => e.message
  | .unreachable path e => "cannot access path " ++ quotedPath path ++ ": " ++ e.message
  | .notFile path => "not a file: " ++ path

/-- The line that reports it: after the message comes its cause, where it is known apart. -/
def report (e : RunError) : String :=
  "Error: " ++ e.message ++
    match e with
    | .unreadableSettings _ cause => ": " ++ cause.message
    | _ => ""

end RunError

namespace Workspace

/-- Where a path leads to. -/
def locate (w : Workspace) (path : String) : Except FileError (List String) :=
  w.files.locate w.folder path

/-- The bytes of the file that a path leads to. -/
def read (w : Workspace) (path : String) : Except FileError (List UInt8) := do
  w.files.readAt (← w.locate path)

/-! ### Settings -/

/-- The name of a file of settings. -/
def settingsName : String :=
  "ahkmeta.yaml"

/-- Where a file of settings may be, in the order of preference. -/
def settingsLocations (w : Workspace) : List (List String) :=
  [w.folder ++ [settingsName], w.folder ++ ["." ++ settingsName],
    w.settingsFolder ++ [settingsName]]

/-- The path of the file of settings that applies where none is named. -/
def settingsPath? (w : Workspace) : Option String :=
  (w.settingsLocations.find? w.files.isFileAt).map fun location => "/" ++ joinSlashes location

/-- The settings in a file, faulty or not. -/
def readSettings (w : Workspace) (path : String) : Except RunError Settings := do
  let text ←
    match w.read path with
    | .error e => .error (.unreadableSettings path e)
    | .ok bytes =>
      match Utf8.decode? bytes with
      | none => .error (.unreadableSettings path .notText)
      | some cs => .ok (String.ofList cs)
  match Settings.ofText? text with
  | none => .error (.malformedSettings path)
  | some s => .ok s

/-- The settings in the named file, or else in the file that is found, or else the default ones. -/
def findSettings (w : Workspace) (named : Option String) : Except RunError Settings :=
  match named <|> w.settingsPath? with
  | some path => w.readSettings path
  | none => .ok {}

/-- Settings that have no fault. -/
def checkSettings (s : Settings) : Except RunError Settings :=
  match s.error? with
  | some e => .error (.invalidSettings e)
  | none => .ok s

/-- The settings that apply. -/
def loadSettings (w : Workspace) (named : Option String) : Except RunError Settings := do
  checkSettings (← w.findSettings named)

/-! ### Scripts -/

/--
The scripts that a path stands for, with their names in reports.  A file stands for itself, whatever
it is called; a folder stands for the scripts below it.
-/
def sources (w : Workspace) (s : Settings) (path : String) :
    Except RunError (List (String × List UInt8)) := do
  match w.locate path with
  | .error e => .error (.unreachable path e)
  | .ok location =>
    match w.files.at? location with
    | some (.file bytes) => return [(shownName (location.getLast?.toList), bytes)]
    | some tree => return (s.scripts tree).map fun (below, bytes) => (shownName below, bytes)
    | none => return []

end Workspace

end ScriptOutline
