/-
**Lines of a source text.**

A scanned line is its cells together with the number of code braces that are open where it starts.

Main definitions:

* `Line` — a scanned line;
* `Line.text`, `Line.codeText`, `Line.maskedText` — the line as text, with less and less of it
  shown;
* `Line.isBlank`, `Line.isCommentOnly`, `Line.firstCode?` — what the line holds;
* `depthAfter` — how a run of cells changes the number of open braces.

Main results:

* `Line.codeText_length` — blanking out comments keeps every column.
-/

import ScriptOutline.Source.Cell
import ScriptOutline.Text.Blank

set_option relaxedAutoImplicit false
set_option autoImplicit false

namespace ScriptOutline

/-- A scanned line, with the number of code braces open at its start. -/
structure Line where
  cells : List Cell
  startDepth : Nat
  deriving DecidableEq, Repr

namespace Line

/-- The characters of a line. -/
def text (l : Line) : List Char :=
  l.cells.map Cell.char

/-- The characters of a line, with comments blanked out. -/
def codeText (l : Line) : List Char :=
  l.cells.map Cell.visible

/-- The characters of a line, with comments and the insides of literals blanked out. -/
def maskedText (l : Line) : List Char :=
  l.cells.map Cell.masked

/-- The number of characters of a line. -/
def length (l : Line) : Nat :=
  l.cells.length

@[simp] theorem codeText_length (l : Line) : l.codeText.length = l.length := by
  simp [codeText, length]

/-- Whether a line holds blanks only. -/
def isBlank (l : Line) : Bool :=
  l.text.all ScriptOutline.isBlank

/-- Whether a line holds some comment, and blanks besides. -/
def isCommentOnly (l : Line) : Bool :=
  l.cells.any Cell.isComment && l.cells.all fun c => c.isComment || ScriptOutline.isBlank c.char

/-- Whether a cell is code that can be seen. -/
def isToken (c : Cell) : Bool :=
  c.isCode && !ScriptOutline.isBlank c.char

/-- The column of the first code character that is not a blank. -/
def firstCode? (l : Line) : Option Nat :=
  l.cells.findIdx? isToken

/-- Whether a line holds no code but blanks. -/
def hasNoCode (l : Line) : Bool :=
  l.firstCode?.isNone

/-- The region that a line break belongs to: that of the last character before it. -/
def breakRegion (l : Line) : Region :=
  (l.cells.getLast?.map Cell.region).getD .code

end Line

/-! ### Open braces -/

/-- The number of open braces after a cell: a stray closing brace leaves none open. -/
def depthStep (depth : Nat) (c : Cell) : Nat :=
  if c.isCodeChar '{' then depth + 1 else if c.isCodeChar '}' then depth - 1 else depth

/-- The number of open braces after a run of cells. -/
def depthAfter (depth : Nat) (cells : List Cell) : Nat :=
  cells.foldl depthStep depth

/-- The number of opening less the number of closing braces in a run of cells. -/
def braceBalance (cells : List Cell) : Int :=
  (cells.countP (·.isCodeChar '{') : Int) - cells.countP (·.isCodeChar '}')

end ScriptOutline
