/-
**The command line.**

The program is run on the files of a real machine: those that its arguments name, and those that its
settings may be in, are read beforehand, and then the answer is computed and written.

Main definitions:

* `load` — a file or a folder with all that it holds;
* `gather` — a tree with what a path leads through, and to;
* `main` — the program.
-/

import ScriptOutline.Program
import ScriptOutline.Text.Digest

set_option relaxedAutoImplicit false
set_option autoImplicit false

namespace ScriptOutline

/-- The names that lead from the root to an absolute path. -/
def locationOf (path : String) : List String :=
  ((splitSlashes path.toList).filter isNaming).map String.ofList

/-- A file, or a folder with all that it holds; hidden folders in it are left empty. -/
partial def load (path : String) : IO FileTree := do
  let place := (← IO.currentDir) / path
  if ← place.isDir then
    let entries ← (← place.readDir).toList.mapM fun entry => do
      let below := path ++ "/" ++ entry.fileName
      let hidden := FileTree.isHidden entry.fileName && (← entry.path.isDir)
      return (entry.fileName, ← if hidden then pure (.folder []) else load below)
    return .folder entries
  else
    return .file (← IO.FS.readBinFile path).toList

/-- A tree with what stands at a path, if anything does: all of it, or only that it is a folder. -/
def survey (tree : FileTree) (path : String) (whole : Bool) : IO FileTree := do
  let place := (← IO.currentDir) / path
  if ← place.pathExists then
    let location := locationOf (← IO.FS.realPath place).toString
    if whole then return tree.put location (← load path)
    else if ← place.isDir then return tree.put location (.folder [])
    else return tree
  else return tree

/-- A tree with the folders that a path leads through, and all that it leads to. -/
def gather (tree : FileTree) (path : String) : IO FileTree := do
  let segments := (splitSlashes path.toList).map String.ofList
  let throughs := (List.range segments.length).map fun n => joinSlashes (segments.take n)
  let tree ← throughs.foldlM (fun tree through =>
    if through.isEmpty then pure tree else survey tree through false) tree
  survey tree path true

/--
Whether output has colours, given what the environment says and whether it goes to a terminal.
-/
def wantsColor (force never always : Option String) (terminal : Bool) : Bool :=
  if force.any (· ≠ "0") then true
  else if never.any (· ≠ "0") then false
  else always.all (· ≠ "0") && terminal

/-- The folder for the settings of the program, given the user's folders. -/
def settingsPath (config home : Option String) : String :=
  match config.filter fun path => path.toList.head? = some '/' with
  | some path => path ++ "/" ++ programName
  | none => home.getD "" ++ "/.config/" ++ programName

/-- The paths of the files that an invocation may be about. -/
def pathsOf (invocation : Invocation) : List String :=
  invocation.settings.toList ++
    match invocation.query with
    | .outline path _ | .hover path _ _ _ | .lint path _ => [path]

/-- Runs the program on arguments and returns its exit code. -/
def runProgram (arguments : List String) : IO UInt32 := do
  let folder := (← IO.currentDir).toString
  let settings := settingsPath (← IO.getEnv "XDG_CONFIG_HOME") (← IO.getEnv "HOME")
  let color := wantsColor (← IO.getEnv "CLICOLOR_FORCE") (← IO.getEnv "NO_COLOR")
    (← IO.getEnv "CLICOLOR") (← (← IO.getStdout).isTty)
  let named :=
    match Invocation.ofArguments arguments with
    | .ok invocation => pathsOf invocation
    | .error _ => []
  let name := Workspace.settingsName
  let paths := [name, "." ++ name, settings ++ "/" ++ name] ++ named
  let files ← paths.foldlM gather ((FileTree.folder []).put (locationOf folder) (.folder []))
  let time ← IO.monoMsNow
  let workspace : Workspace := ⟨files, locationOf folder, locationOf settings⟩
  let ending := Ending.of (execute workspace textDigest (fun _ => time) color arguments)
  IO.print ending.output
  if let some report := ending.error then IO.eprintln report
  return UInt32.ofNat ending.exitCode

end ScriptOutline

/-- The program. -/
def main (arguments : List String) : IO UInt32 :=
  ScriptOutline.runProgram arguments
