/-
**Trees of files.**

A folder holds files and folders under names; a file holds bytes.  A location is the list of the
names that lead to it from the root.  A path is followed segment by segment from a folder: a dot
stays, two dots go up, and every other name has to be there.

Main definitions:

* `FileTree` — files and folders;
* `FileTree.at?` — what stands at a location;
* `FileTree.locate` — where a path leads to;
* `FileTree.visibleFiles` — the files below a folder that no hidden folder hides;
* `FileTree.put` — a tree with something more in it.
-/

import ScriptOutline.Path

set_option relaxedAutoImplicit false
set_option autoImplicit false

namespace ScriptOutline

/-- Files and folders. -/
inductive FileTree where
  | file (bytes : List UInt8)
  | folder (entries : List (String × FileTree))
  deriving Inhabited, Repr

/-- What can go wrong with a file. -/
inductive FileError where
  /-- There is nothing of that name. -/
  | missing
  /-- There is a file where a folder has to be. -/
  | notFolder
  /-- There is a folder where a file has to be. -/
  | isFolder
  /-- The file does not hold UTF-8. -/
  | notText
  deriving DecidableEq, Repr

/-- What is said of what went wrong. -/
def FileError.message : FileError → String
  | .missing => "No such file or directory (os error 2)"
  | .notFolder => "Not a directory (os error 20)"
  | .isFolder => "Is a directory (os error 21)"
  | .notText => "stream did not contain valid UTF-8"

namespace FileTree

/-! ### Locations -/

/-- What a folder holds under a name. -/
def child? (t : FileTree) (name : String) : Option FileTree :=
  match t with
  | .folder entries => entries.lookup name
  | .file _ => none

/-- What stands at a location. -/
def at? (t : FileTree) : List String → Option FileTree
  | [] => some t
  | name :: rest => (t.child? name).bind (at? · rest)

/-- Whether there is a file at a location. -/
def isFileAt (t : FileTree) (location : List String) : Bool :=
  match t.at? location with
  | some (.file _) => true
  | _ => false

/-- The bytes of the file at a location. -/
def readAt (t : FileTree) (location : List String) : Except FileError (List UInt8) :=
  match t.at? location with
  | some (.file bytes) => .ok bytes
  | some (.folder _) => .error .isFolder
  | none => .error .missing

/-! ### Paths -/

/-- Where a segment of a path leads to from a location. -/
def enter (t : FileTree) (location : List String) (segment : List Char) :
    Except FileError (List String) :=
  match t.at? location with
  | none => .error .missing
  | some (.file _) => .error .notFolder
  | some (.folder entries) =>
    if !isNaming segment then .ok location
    else if segment = ['.', '.'] then .ok location.dropLast
    else
      let name := String.ofList segment
      if (entries.lookup name).isSome then .ok (location ++ [name]) else .error .missing

/--
Where a path leads to from a folder; a path that starts with a slash is followed from the root.
-/
def locate (t : FileTree) (folder : List String) (path : String) :
    Except FileError (List String) :=
  match path.toList with
  | [] => .error .missing
  | c :: rest => (splitSlashes (c :: rest)).foldlM t.enter (if c = '/' then [] else folder)

/-! ### Files below a folder -/

/-- Whether a name marks a folder as hidden. -/
def isHidden (name : String) : Bool :=
  name.toList.head? = some '.'

/-- Whether a tree is a folder. -/
def isFolder : FileTree → Bool
  | .folder _ => true
  | .file _ => false

mutual

/-- The files below a folder that no hidden folder hides, with their locations and bytes. -/
def visibleFiles : FileTree → List (List String × List UInt8)
  | .file bytes => [([], bytes)]
  | .folder entries => visibleFilesOf entries

/-- The files among the entries of a folder, and below them. -/
def visibleFilesOf : List (String × FileTree) → List (List String × List UInt8)
  | [] => []
  | (name, tree) :: rest =>
    (if tree.isFolder && isHidden name then []
      else tree.visibleFiles.map fun (location, bytes) => (name :: location, bytes)) ++
      visibleFilesOf rest

end

/-! ### Making trees -/

/-- The entries of a folder with another tree under a name, in the place of the old one. -/
def replaceEntry (entries : List (String × FileTree)) (name : String) (tree : FileTree) :
    List (String × FileTree) :=
  if entries.any (·.1 = name) then entries.map fun e => if e.1 = name then (name, tree) else e
  else entries ++ [(name, tree)]

/--
A tree with something more at a location, below the folders that lead to it.  A folder that is there
already keeps what it holds.
-/
def put (t : FileTree) (location : List String) (leaf : FileTree) : FileTree :=
  match location with
  | [] => if t.isFolder && leaf.isFolder then t else leaf
  | name :: rest =>
    let entries :=
      match t with
      | .folder entries => entries
      | .file _ => []
    .folder (replaceEntry entries name (put ((t.child? name).getD (.folder [])) rest leaf))

end FileTree

end ScriptOutline
