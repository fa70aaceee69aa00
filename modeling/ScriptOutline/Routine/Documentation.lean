/-
**Comments above a declaration.**

The documentation of a declaration is the block of comment lines directly above it, up to the next
line that is blank or has code.  The marks of the comments are stripped, and so are the empty lines
at either end.

Main definitions:

* `cleanComment` — the text of one comment line;
* `documentationAbove?` — the comment above a line.
-/

import ScriptOutline.Source

set_option relaxedAutoImplicit false
set_option autoImplicit false

namespace ScriptOutline

/-- A text without the marks `/**` that it starts with. -/
def dropDocMarks : List Char → List Char
  | '/' :: '*' :: '*' :: rest => dropDocMarks rest
  | cs => cs

/-- A text without the marks `/*` that it starts with. -/
def dropBlockMarks : List Char → List Char
  | '/' :: '*' :: rest => dropBlockMarks rest
  | cs => cs

/-- A text without the marks of the end of a block comment that it ends with. -/
def dropEndMarks (cs : List Char) : List Char :=
  (dropBlockMarks cs.reverse).reverse

/-- A text without the star that it starts with. -/
def dropStar : List Char → List Char
  | '*' :: rest => rest
  | cs => cs

/-- The text of a comment line without its marks. -/
def cleanComment (line : List Char) : List Char :=
  let text := trim line
  if text.head? = some ';' then trim (text.dropWhile (· = ';'))
  else trim (dropStar (trimStart (dropEndMarks (dropBlockMarks (dropDocMarks text)))))

/-- The comment lines directly above a line, from top to bottom. -/
def commentLinesAbove (s : Source) (n : Nat) : List Line :=
  ((s.lines.take n).reverse.takeWhile Line.isCommentOnly).reverse

/-- A list of lines without the empty ones at either end. -/
def dropOuterEmpty (lines : List (List Char)) : List (List Char) :=
  ((lines.dropWhile List.isEmpty).reverse.dropWhile List.isEmpty).reverse

/-- The comment above a line, if it has any text. -/
def documentationAbove? (s : Source) (n : Nat) : Option String :=
  let lines := dropOuterEmpty ((commentLinesAbove s n).map fun l => cleanComment l.text)
  if lines.isEmpty then none else some (String.ofList (List.intercalate ['\n'] lines))

end ScriptOutline
