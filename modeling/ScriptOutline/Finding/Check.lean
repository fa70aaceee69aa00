/-
**Checking the routines of a file.**

Two routines clash if they have the same name, the same class and the same routine around them; all
but the first of those that clash are reported.  A parameter is reported if one before it has the
same name, and a routine if its parameters could not be read.  Names are compared without regard to
case.

Main definitions:

* `ClashKey`, `clashKey` — what two routines share if they clash;
* `repeatedRoutines`, `repeatedParameters`, `unreadSignature` — the three rules;
* `check` — all findings of a file, in the order of their places.
-/

import ScriptOutline.Finding
import ScriptOutline.Routine

set_option relaxedAutoImplicit false
set_option autoImplicit false

namespace ScriptOutline

/-- A finding about a routine. -/
def Routine.finding (r : Routine) (file : String) (rule : Rule) (message : String) : Finding :=
  ⟨rule, message, file, r.span.start.line + 1, r.span.start.column + 1, rule.severity⟩

/-! ### Routines that clash -/

/-- What two routines share if they clash. -/
structure ClashKey where
  className : Option String
  /-- The index of the routine around it. -/
  parent : Option Nat
  name : String
  deriving DecidableEq, Repr

/-- The index of the innermost other routine around the one with a given index. -/
def parentIndex? (routines : List Routine) (index : Nat) (r : Routine) : Option Nat :=
  let around := routines.zipIdx.filter fun (other, n) => n ≠ index && other.span.encloses r.span
  (latest? (·.1.span.start) around).map Prod.snd

/-- What a routine shares with those that it clashes with. -/
def clashKey (routines : List Routine) (index : Nat) (r : Routine) : ClashKey :=
  ⟨r.className.map lowercase, parentIndex? routines index r, lowercase r.name⟩

/-- The routines with their keys. -/
def keyedRoutines (routines : List Routine) : List (ClashKey × Routine) :=
  routines.zipIdx.map fun (r, n) => (clashKey routines n r, r)

/-- A finding for each routine whose key was seen before, on itself or among `seen`. -/
def repeatsFrom (file : String) (seen : List (ClashKey × Routine)) :
    List (ClashKey × Routine) → List Finding
  | [] => []
  | (key, r) :: rest =>
    match seen.lookup key with
    | some first =>
      r.finding file .duplicateFunction
          (r.qualifiedName ++ " is already declared at line " ++
            toString (first.span.start.line + 1)) ::
        repeatsFrom file seen rest
    | none => repeatsFrom file ((key, r) :: seen) rest

/-- A finding for each routine that is not the first one with its key. -/
def repeatedRoutines (file : String) (routines : List Routine) : List Finding :=
  repeatsFrom file [] (keyedRoutines routines)

/-! ### Parameters and signatures -/

/-- The names that come again after one of `seen`, or after themselves. -/
def repeatedNames (seen : List String) : List String → List String
  | [] => []
  | name :: rest =>
    if seen.contains (lowercase name) then name :: repeatedNames seen rest
    else repeatedNames (lowercase name :: seen) rest

/-- The names of the parameters that have one. -/
def Routine.parameterNames (r : Routine) : List String :=
  (r.parameters.map Parameter.name).filter (· ≠ Parameter.anonymous)

/-- A finding for each parameter whose name came before. -/
def repeatedParameters (file : String) (r : Routine) : List Finding :=
  (repeatedNames [] r.parameterNames).map fun name =>
    r.finding file .duplicateParameter
      ("parameter " ++ name ++ " appears more than once in " ++ r.qualifiedName)

/-- A finding for a routine whose parameters could not be read. -/
def unreadSignature (file : String) (r : Routine) : List Finding :=
  match r.parseError with
  | some error =>
    [r.finding file .malformedSignature
      ("cannot parse parameters of " ++ r.qualifiedName ++ ": " ++ error)]
  | none => []

/-! ### All rules -/

/-- Whether a finding is placed no later than another. -/
def Finding.placedBefore (a b : Finding) : Bool :=
  a.line < b.line || a.line = b.line && a.column ≤ b.column

/-- All findings of a file, in the order of their places; those of one place keep their order. -/
def check (file : String) (routines : List Routine) : List Finding :=
  (repeatedRoutines file routines ++
    routines.flatMap fun r => repeatedParameters file r ++ unreadSignature file r).mergeSort
      Finding.placedBefore

end ScriptOutline
