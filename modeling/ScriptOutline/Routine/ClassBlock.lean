/-
**Class blocks.**

A class is declared on a line of its own, as `class Name` or `class Name extends Base`, with its
opening brace at the end of that line or as the first code below it.

Main definitions:

* `ClassBlock` — a class and what it spans;
* `classHeader?` — the name and the brace of a class header;
* `classBlocks` — the classes of a text.
-/

import ScriptOutline.Declaration.Tail

set_option relaxedAutoImplicit false
set_option autoImplicit false

namespace ScriptOutline

/-- A class, from its keyword to its closing brace. -/
structure ClassBlock where
  name : String
  span : Span
  deriving DecidableEq, Repr

/-- Whether a character can stand in the path of a base class. -/
def isBaseChar (c : Char) : Bool :=
  isWordChar c || c = '.'

/-- What follows the base class at the start of a text, or the text if it names none. -/
def afterBase (cs : List Char) : List Char :=
  match ((afterBlanks? cs).bind (afterWord? "extends".toList)).bind afterBlanks? with
  | some (c :: rest) => if isBaseChar c then rest.dropWhile isBaseChar else cs
  | _ => cs

/-- The name of a class header, and how many characters its line has from its brace on, if any. -/
def classHeader? (cs : List Char) : Option (String × Option Nat) := do
  let rest ← (afterWord? "class".toList cs).bind afterBlanks?
  let (name, rest) ← identifier? rest
  match trimStart (afterBase rest) with
  | [] => some (String.ofList name, none)
  | c :: rest =>
    if c = '{' && (trimStart rest).isEmpty then some (String.ofList name, some (rest.length + 1))
    else none

/-- The class that is declared on a line. -/
def classBlock? (s : Source) (n : Nat) (l : Line) : Option ClassBlock := do
  let first ← l.firstCode?
  let (name, brace) ← classHeader? (l.codeText.drop first)
  let opening ←
    match brace with
    | some length => some ⟨n, l.length - length⟩
    | none => nextBrace? s n
  let stop := ((s.matchingBrace? opening).map Position.next).getD s.endPosition
  return ⟨name, ⟨⟨n, first⟩, stop⟩⟩

/-- The classes of a text, in the order of their lines. -/
def classBlocks (s : Source) : List ClassBlock :=
  s.lines.zipIdx.filterMap fun (l, n) => classBlock? s n l

/--
The class that a span belongs to: the innermost one around it, unless one of the other spans lies
between the two.
-/
def owningClass? (span : Span) (spans : List Span) (classes : List ClassBlock) : Option String := do
  let block ← latest? (·.span.start) (classes.filter (·.span.encloses span))
  if spans.any fun other =>
      other ≠ span && other.encloses span && decide (block.span.start < other.start) then none
  else some block.name

end ScriptOutline
