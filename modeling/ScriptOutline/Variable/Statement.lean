/-
**Statements that bring in variables.**

A line of a body brings in variables in one of two ways.  A declaration line starts with the keyword
of a scope and lists names, some of them with initializers.  On any other line a name comes in by an
assignment, by a loop over a collection, or by catching an error.  In a chain such as `a := b := 0`
every name gets the last value.

Main definitions:

* `Mention` — a name, its column, and what its initializer tells;
* `readChain` — the names of a chain of assignments, and the last value;
* `declaredOn?` — the scope and the names of a declaration line;
* `loopNames`, `caughtNames`, `assignedNames` — the names that other lines bring in;
* `impliedOn` — all of these.
-/

import ScriptOutline.Variable
import ScriptOutline.Variable.Hint

set_option relaxedAutoImplicit false
set_option autoImplicit false

namespace ScriptOutline

/-- A name on a line, where it starts, and what is known of its first value. -/
structure Mention where
  name : List Char
  column : Nat
  hasInitializer : Bool
  hint : Option Hint
  deriving DecidableEq, Repr

/-! ### Chains of assignments -/

/-- What follows `:=` at the start of a text, leading blanks aside. -/
def afterAssign? (cs : List Char) : Option (List Char) :=
  match trimStart cs with
  | ':' :: '=' :: rest => some rest
  | _ => none

theorem length_dropWhile_le {α : Type} (p : α → Bool) (l : List α) :
    (l.dropWhile p).length ≤ l.length :=
  (List.dropWhile_sublist p).length_le

/-- What follows an assignment mark is shorter than the text. -/
theorem afterAssign?_length {cs rest : List Char} (h : afterAssign? cs = some rest) :
    rest.length < cs.length := by
  have hle : (trimStart cs).length ≤ cs.length := length_dropWhile_le _ _
  unfold afterAssign? at h
  split at h
  · rename_i heq
    simp only [Option.some.injEq] at h
    subst h
    rw [heq] at hle
    simp only [List.length_cons] at hle
    omega
  · simp at h

/-- The name that an assignment at the start of a text goes to, and what follows the mark. -/
def assignedName? (cs : List Char) : Option (List Char × List Char) :=
  match identifier? (trimStart cs) with
  | none => none
  | some (name, rest) => (afterAssign? rest).map fun value => (name, value)

/-- What follows an assignment is shorter than the text. -/
theorem assignedName?_length {cs name rest : List Char}
    (h : assignedName? cs = some (name, rest)) : rest.length < cs.length := by
  have hle : (trimStart cs).length ≤ cs.length := length_dropWhile_le _ _
  unfold assignedName? at h
  split at h
  · simp at h
  · rename_i name' rest' heq
    simp only [Option.map_eq_some_iff, Prod.mk.injEq] at h
    obtain ⟨value, hvalue, -, rfl⟩ := h
    have hlt := afterAssign?_length hvalue
    have hcs := congrArg List.length (identifier?_eq_some heq)
    simp only [List.length_append] at hcs
    omega

/-- The names of a chain that starts at a column, and what follows its last mark. -/
def chainNames (column : Nat) (cs : List Char) : List (List Char × Nat) × List Char :=
  match _h : assignedName? cs with
  | none => ([], cs)
  | some (name, rest) =>
    let (names, value) := chainNames (column + (cs.length - rest.length)) rest
    ((name, column + (cs.length - (trimStart cs).length)) :: names, value)
termination_by cs.length
decreasing_by exact assignedName?_length _h

/-- The name that a text consists of, blanks aside. -/
def loneName? (cs : List Char) : Option (List Char) :=
  let name := trim cs
  if isIdentifier name then some name else none

/-- The names of a chain, or the only name of the text, and the value if there is a mark. -/
def readChain (column : Nat) (cs : List Char) : List (List Char × Nat) × Option (List Char) :=
  let (names, value) := chainNames column cs
  if names.isEmpty then
    match loneName? cs with
    | some name => ([(name, column + (cs.length - (trimStart cs).length))], none)
    | none => ([], none)
  else (names, some (trim value))

/-! ### Declaration lines -/

/-- The number of open brackets after a character: a stray closing bracket leaves none open. -/
def charStep (depth : Nat) (c : Char) : Nat :=
  if isOpener c then depth + 1 else if isCloser c then depth - 1 else depth

/-- The pieces of a text between the commas outside of brackets, `depth` being open. -/
def piecesFrom (depth : Nat) : List Char → List (List Char)
  | [] => [[]]
  | c :: rest =>
    if depth = 0 && c = ',' then [] :: piecesFrom 0 rest
    else
      match piecesFrom (charStep depth c) rest with
      | [] => [[c]]
      | piece :: pieces => (c :: piece) :: pieces

/-- Pieces that were separated by one character each, with their columns. -/
def withColumns (column : Nat) : List (List Char) → List (Nat × List Char)
  | [] => []
  | piece :: rest => (column, piece) :: withColumns (column + piece.length + 1) rest

/-- The pieces of a text between the commas outside of brackets, with their columns. -/
def splitPieces (column : Nat) (cs : List Char) : List (Nat × List Char) :=
  withColumns column (piecesFrom 0 cs)

/-- The scope that the first word of a line declares, and what follows it, unless that is blank. -/
def scopeOf? (cs : List Char) : Option (Scope × List Char) :=
  let start := trimStart cs
  let isInk := fun c => !isBlank c
  match Scope.ofKeyword? (String.ofList (start.takeWhile isInk)) with
  | none => none
  | some scope =>
    let rest := trimStart (start.dropWhile isInk)
    if rest.isEmpty then none else some (scope, rest)

/-- The mentions of one piece of a declaration line. -/
def declaredIn (column : Nat) (piece : List Char) : List Mention :=
  let (names, value) := readChain column piece
  names.map fun (name, column) => ⟨name, column, value.isSome, value.bind Hint.ofText?⟩

/-- The scope and the mentions of a declaration line. -/
def declaredOn? (cs : List Char) : Option (Scope × List Mention) :=
  (scopeOf? cs).map fun (scope, rest) =>
    (scope, (splitPieces (cs.length - rest.length) rest).flatMap fun (column, piece) =>
      declaredIn column piece)

/-! ### Loops and caught errors -/

/-- A mention of a name before the last `rest` of a line of a given length. -/
def Mention.before (length : Nat) (name rest : List Char) : Mention :=
  ⟨name, length - rest.length - name.length, true, none⟩

/-- Whether a text goes on with the word `in`, after blanks. -/
def meetsIn (cs : List Char) : Bool :=
  match (afterBlanks? cs).bind (afterWord? "in".toList) with
  | none => false
  | some rest => !rest.head?.any isWordChar

/-- What follows the word `for` and the parenthesis or the blanks after it. -/
def afterFor? (cs : List Char) : Option (List Char) :=
  match afterWord? "for".toList (trimStart cs) with
  | none => none
  | some rest =>
    match trimStart rest with
    | '(' :: inner => some (trimStart inner)
    | _ => afterBlanks? rest

/-- The one or two names that a loop over a collection sets. -/
def loopNames (cs : List Char) : List Mention :=
  match (afterFor? cs).bind identifier? with
  | none => []
  | some (first, rest) =>
    match trimStart rest with
    | ',' :: more =>
      match identifier? (trimStart more) with
      | none => []
      | some (second, after) =>
        if meetsIn after then
          [Mention.before cs.length first rest, Mention.before cs.length second after]
        else []
    | _ => if meetsIn rest then [Mention.before cs.length first rest] else []

/-- What follows the word `catch` at the start of a line, a closing brace before it aside. -/
def afterCatch? (cs : List Char) : Option (List Char) :=
  let start :=
    match trimStart cs with
    | '}' :: rest => trimStart rest
    | start => start
  match afterWord? "catch".toList start with
  | none => none
  | some rest => if rest.head?.any isWordChar then none else some rest

/-- The name after the word `as` at the start of a text, and what follows it. -/
def nameAfterAs? (cs : List Char) : Option (List Char × List Char) :=
  ((afterWord? "as".toList cs).bind afterBlanks?).bind identifier?

/-- The name after the last word `as` of a text, where `inWord` says what comes before the text. -/
def lastNameAfterAs? (inWord : Bool) : List Char → Option (List Char × List Char)
  | [] => none
  | c :: rest =>
    lastNameAfterAs? (isWordChar c) rest <|> if inWord then none else nameAfterAs? (c :: rest)

/-- The name that a caught error gets. -/
def caughtNames (cs : List Char) : List Mention :=
  match (afterCatch? cs).bind (lastNameAfterAs? true) with
  | none => []
  | some (name, rest) => [Mention.before cs.length name rest]

/-! ### Assignments -/

/--
Whether a name may start after a character: it is not a member, a dereference or a word's rest.
-/
def admitsName (before : Option Char) : Bool :=
  !before.any fun c => c = '.' || c = '%' || c = ']' || isAlphanumeric c || c = '_'

/-- The hint that the text after an assignment mark gives. -/
def valueHint? (cs : List Char) : Option Hint :=
  match (readChain 0 cs).2 with
  | some value => Hint.ofText? value
  | none => Hint.ofText? cs

/-- The assignment to a name at a column, if a text starts with it. -/
def assignmentAt (before : Option Char) (column : Nat) (cs : List Char) : List Mention :=
  match identifier? cs with
  | none => []
  | some (name, rest) =>
    match afterAssign? rest with
    | none => []
    | some value => if admitsName before then [⟨name, column, true, valueHint? value⟩] else []

/--
The assignments in the rest of a line.  `inName` says that the text goes on inside of a name that
was looked at, and `before` is the character before it.
-/
def assignmentsFrom (inName : Bool) (before : Option Char) (column : Nat) :
    List Char → List Mention
  | [] => []
  | c :: rest =>
    if inName && isWordChar c then assignmentsFrom true (some c) (column + 1) rest
    else
      assignmentAt before column (c :: rest) ++
        assignmentsFrom (isIdentifierStart c) (some c) (column + 1) rest

/-- The names that a line assigns to. -/
def assignedNames (cs : List Char) : List Mention :=
  assignmentsFrom false none 0 cs

/-- The names that a line without a declaration brings in. -/
def impliedOn (cs : List Char) : List Mention :=
  loopNames cs ++ caughtNames cs ++ assignedNames cs

end ScriptOutline
