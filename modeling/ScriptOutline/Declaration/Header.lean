/-
**Headers of declarations.**

A header is an identifier before an opening parenthesis, after the word `static` or without it.  The
parentheses hold the parameters and may span several lines, but not more than a fixed number.

Main definitions:

* `Header`, `Header.read?` — the start of a declaration, up to its opening parenthesis;
* `maxHeaderLines` — how many lines below its start a list of parameters may reach;
* `parameterCells?` — the cells between the parentheses, and the place of the closing one.
-/

import ScriptOutline.Declaration

set_option relaxedAutoImplicit false
set_option autoImplicit false

namespace ScriptOutline

/-- The start of a declaration, up to and including its opening parenthesis. -/
structure Header where
  name : String
  isStatic : Bool
  /-- What follows the opening parenthesis. -/
  rest : List Char
  deriving DecidableEq, Repr

namespace Header

/-- An identifier before an opening parenthesis, blanks between them aside. -/
def named? (isStatic : Bool) (cs : List Char) : Option Header :=
  match identifier? cs with
  | none => none
  | some (name, rest) =>
    match trimStart rest with
    | '(' :: rest => some ⟨String.ofList name, isStatic, rest⟩
    | _ => none

/-- A header after the word `static`. -/
def static? (cs : List Char) : Option Header :=
  ((afterWord? "static".toList cs).bind afterBlanks?).bind (named? true)

/-- The header at the start of a text. -/
def read? (cs : List Char) : Option Header :=
  static? cs <|> named? false cs

end Header

/-! ### The list of parameters -/

/-- How many lines below its opening parenthesis a list of parameters may reach. -/
def maxHeaderLines : Nat := 32

/--
The cells up to the closing parenthesis that matches one opened before, and its place.  Comments
and line breaks become blanks.  There are none if `lastLine` is passed, if another kind of bracket
closes first, or if the text ends.
-/
def cellsToClose? (lastLine depth : Nat) : List Spot → Option (List Cell × Position)
  | [] => none
  | s :: rest =>
    if lastLine < s.position.line then none
    else if s.isBreak || s.cell.isComment then
      (cellsToClose? lastLine depth rest).map fun (cells, p) => (Cell.space :: cells, p)
    else if depth = 0 && s.cell.isCloser then
      if s.cell.char = ')' then some ([], s.position) else none
    else
      (cellsToClose? lastLine (bracketStep depth s.cell) rest).map fun (cells, p) =>
        (s.cell :: cells, p)

/-- The cells between an opening parenthesis and the one that closes it, and the place of that. -/
def parameterCells? (s : Source) (opening : Position) : Option (List Cell × Position) :=
  cellsToClose? (opening.line + maxHeaderLines) 0 (s.spotsFrom opening.next)

end ScriptOutline
