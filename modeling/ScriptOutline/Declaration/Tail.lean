/-
**What follows the parameters of a declaration.**

After the closing parenthesis a declaration may name the type it returns, after `->`, and then has
its body: an opening brace or an arrow on the same line, or, where only blanks and comments follow,
an opening brace at the start of the next line that has code.

Main definitions:

* `Tail`, `tail?` — the return type, the body and the last line of the header;
* `readReturnType?` — the return type at the start of a run of cells;
* `nextBrace?` — the opening brace of the next line that has code;
* `arrowStop` — the end of the expression after an arrow.
-/

import ScriptOutline.Declaration

set_option relaxedAutoImplicit false
set_option autoImplicit false

namespace ScriptOutline

/-- A run of cells without its leading blanks of code. -/
def dropBlankCode (cells : List Cell) : List Cell :=
  cells.dropWhile fun c => c.isCode && isBlank c.char

/-- What follows two given characters of the code at the start of a run of cells. -/
def afterPair? (first second : Char) : List Cell → Option (List Cell)
  | c :: d :: rest => if c.isCodeChar first && d.isCodeChar second then some rest else none
  | _ => none

/-! ### The return type -/

/-- The text of a type at the start of a run of cells, and what follows it. -/
def spanType : List Cell → List Char × List Cell
  | [] => ([], [])
  | c :: rest =>
    if !c.isCode || isBlank c.char || c.char = '{' || (afterPair? '=' '>' (c :: rest)).isSome then
      ([], c :: rest)
    else
      let (type, after) := spanType rest
      (c.char :: type, after)

/--
The return type at the start of a run of cells, if it has one, and what follows it.  There is no
result if the type is missing after its mark.
-/
def readReturnType? (cells : List Cell) : Option (Option String × List Cell) :=
  match afterPair? '-' '>' cells with
  | none => some (none, cells)
  | some rest =>
    let (type, after) := spanType (dropBlankCode rest)
    if type.isEmpty then none else some (some (String.ofList type), dropBlankCode after)

/-! ### The body -/

/-- The opening brace that is the first code of the given lines, the first of which is `line`. -/
def firstBrace? (line : Nat) : List Line → Option Position
  | [] => none
  | l :: rest =>
    match l.firstCode? with
    | none => firstBrace? (line + 1) rest
    | some column =>
      if (l.cells[column]?).any (·.char = '{') then some ⟨line, column⟩ else none

/-- The opening brace that is the first code below a line. -/
def nextBrace? (s : Source) (line : Nat) : Option Position :=
  firstBrace? (line + 1) (s.lines.drop (line + 1))

/--
The end of the expression that the spots hold.  It ends at a line break outside of brackets, or
before a bracket that was opened before the expression.  `last` is the end of what was read of it,
and an expression with nothing in it ends where it is cut off, or at `finish`.
-/
def arrowStop (finish : Position) (depth : Nat) (last : Option Position) : List Spot → Position
  | [] => last.getD finish
  | s :: rest =>
    if s.isBreak then
      match depth, last with
      | 0, some stop => stop
      | _, _ => arrowStop finish depth last rest
    else if s.cell.isComment || isBlank s.cell.char then arrowStop finish depth last rest
    else if depth = 0 && s.cell.isCloser then last.getD s.position
    else arrowStop finish (bracketStep depth s.cell) (some s.position.next) rest

/-- The block that opens at a position. -/
def blockAt (s : Source) (opening : Position) : Body :=
  .block opening (s.matchingBrace? opening)

/-- The expression that starts at a position. -/
def arrowAt (s : Source) (start : Position) : Body :=
  .arrow start (arrowStop s.endPosition 0 none (s.spotsFrom start))

/-- What follows the parameters of a declaration. -/
structure Tail where
  returnType : Option String
  body : Body
  /-- The last line of the header. -/
  headerLine : Nat
  deriving DecidableEq, Repr

/-- The body that starts with a run of cells, which ends the line `line`, and its header line. -/
def bodyFrom? (s : Source) (line : Line) (n : Nat) (cells : List Cell) : Option (Body × Nat) :=
  let column := line.length - cells.length
  match cells with
  | [] => (nextBrace? s n).map fun opening => (blockAt s opening, opening.line)
  | c :: _ =>
    if c.isComment then (nextBrace? s n).map fun opening => (blockAt s opening, opening.line)
    else if c.isCodeChar '{' then some (blockAt s ⟨n, column⟩, n)
    else if (afterPair? '=' '>' cells).isSome then some (arrowAt s ⟨n, column + 2⟩, n)
    else none

/-- What follows the closing parenthesis at a position. -/
def tail? (s : Source) (closing : Position) : Option Tail := do
  let line ← s.line? closing.line
  let (returnType, cells) ← readReturnType? (dropBlankCode (line.cells.drop (closing.column + 1)))
  let (body, headerLine) ← bodyFrom? s line closing.line cells
  return ⟨returnType, body, headerLine⟩

end ScriptOutline
