/-
**Characters and the regions they stand in.**

Every character of a source text is live code, part of a comment, or part of a string literal; the
quotes of a literal belong to it.  A character together with its region is a cell.

Main definitions:

* `Quote`, `Region`, `Cell` — the two quotes, the regions, and a character in its region;
* `Cell.visible`, `Cell.masked` — the character where comments, or comments and the insides of
  literals, are blanked out;
* `Cell.isOpener`, `Cell.isCloser` — brackets of the code.
-/

set_option relaxedAutoImplicit false
set_option autoImplicit false

namespace ScriptOutline

/-- The two quotes that delimit string literals. -/
inductive Quote where
  | single
  | double
  deriving DecidableEq, Repr

/-- The character of a quote. -/
def Quote.char : Quote → Char
  | .single => '\''
  | .double => '"'

/-- What a character is part of. -/
inductive Region where
  | code
  | lineComment
  | blockComment
  | literal (quote : Quote)
  deriving DecidableEq, Repr

/-- Whether a region is a comment of either kind. -/
def Region.isComment : Region → Bool
  | .lineComment | .blockComment => true
  | .code | .literal _ => false

/-- A character and the region it stands in. -/
structure Cell where
  char : Char
  region : Region
  deriving DecidableEq, Repr

namespace Cell

/-- The cell of a blank between tokens. -/
def space : Cell :=
  ⟨' ', .code⟩

/-- Whether a cell is live code. -/
def isCode (c : Cell) : Bool :=
  c.region = .code

/-- Whether a cell is part of a comment. -/
def isComment (c : Cell) : Bool :=
  c.region.isComment

/-- Whether a cell is a given character of the code. -/
def isCodeChar (c : Cell) (char : Char) : Bool :=
  c.isCode && c.char = char

/-- The character of a cell, with comments blanked out. -/
def visible (c : Cell) : Char :=
  if c.isComment then ' ' else c.char

/--
The character of a cell, with comments and the insides of literals blanked out.  A literal keeps
every occurrence of its own quote.
-/
def masked (c : Cell) : Char :=
  match c.region with
  | .code => c.char
  | .lineComment | .blockComment => ' '
  | .literal quote => if c.char = quote.char then c.char else ' '

end Cell

/-! ### Brackets -/

/-- Whether a character opens a bracket of one of the three kinds. -/
def isOpener (c : Char) : Bool :=
  c = '(' || c = '[' || c = '{'

/-- Whether a character closes a bracket of one of the three kinds. -/
def isCloser (c : Char) : Bool :=
  c = ')' || c = ']' || c = '}'

/-- Whether a cell is an opening bracket of the code. -/
def Cell.isOpener (c : Cell) : Bool :=
  c.isCode && ScriptOutline.isOpener c.char

/-- Whether a cell is a closing bracket of the code. -/
def Cell.isCloser (c : Cell) : Bool :=
  c.isCode && ScriptOutline.isCloser c.char

end ScriptOutline
