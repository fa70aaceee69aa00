/-
**Paths.**

A path names its segments with slashes between them.  Empty segments and single dots name nothing of
their own; two dots name the folder above.

Main definitions:

* `splitSlashes` — what stands between the slashes of a path;
* `joinSlashes` — segments as a path;
* `fileName?` — the last segment that names something, unless that is the folder above;
* `extension?` — what follows the last dot of the file name.

Main results:

* `splitSlashes_ne_nil` — there is always something between the slashes.
-/

set_option relaxedAutoImplicit false
set_option autoImplicit false

namespace ScriptOutline

/-- What stands between the slashes of a path. -/
def splitSlashes : List Char → List (List Char)
  | [] => [[]]
  | c :: rest =>
    if c = '/' then [] :: splitSlashes rest
    else
      match splitSlashes rest with
      | segment :: others => (c :: segment) :: others
      | [] => [[c]]

/-- There is always something between the slashes. -/
theorem splitSlashes_ne_nil (cs : List Char) : splitSlashes cs ≠ [] := by
  cases cs with
  | nil => simp [splitSlashes]
  | cons c rest =>
    rw [splitSlashes]
    split
    · simp
    · split <;> simp

/-- Segments as a path. -/
def joinSlashes (segments : List String) : String :=
  "/".intercalate segments

/-- Whether a segment names something of its own. -/
def isNaming (segment : List Char) : Bool :=
  segment ≠ [] && segment ≠ ['.']

/-- The last segment that names something, unless that is the folder above. -/
def fileName? (path : List Char) : Option (List Char) :=
  (((splitSlashes path).filter isNaming).getLast?).filter fun segment => segment ≠ ['.', '.']

/--
What follows the last dot of the file name.  A name without a dot, or with only the one it starts
with, has no extension.
-/
def extension? (path : List Char) : Option (List Char) :=
  (fileName? path).bind fun name =>
    let after := (name.reverse.takeWhile (· ≠ '.')).reverse
    if after.length + 1 < name.length then some after else none

end ScriptOutline
