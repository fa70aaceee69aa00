/-
**Reading characters into regions.**

A reader walks over a line from left to right and holds a mode that says what it is inside of.  It
looks one character ahead to see the two-character marks that open and close a block comment, and
the escape that takes the character after it into the literal.  A semicolon starts a comment only at
the start of a line or after a blank.  A literal ends with its line; a block comment goes on.

Main definitions:

* `Mode` — what the reader is inside of;
* `Mode.step` — one character: its region and the mode after it;
* `Mode.read` — the cells of one line, and the mode at its end;
* `Mode.afterBreak` — the mode on the next line.

Main results:

* `Mode.read_chars` — reading a line keeps its characters.
-/

import ScriptOutline.Source.Cell
import ScriptOutline.Text.Blank

set_option relaxedAutoImplicit false
set_option autoImplicit false

namespace ScriptOutline

/-- What a reader is inside of when it comes to a character. -/
inductive Mode where
  | code
  | lineComment
  | blockComment
  /-- Before the star that ends the opening mark of a block comment. -/
  | opening
  /-- Before the slash that ends the closing mark of a block comment. -/
  | closing
  | literal (quote : Quote)
  /-- Before the character that an escape takes into the literal. -/
  | escaped (quote : Quote)
  deriving DecidableEq, Repr

namespace Mode

/-- The character that escapes the next one inside a literal. -/
def escape : Char := '\x60'

/--
One character: the region it stands in and the mode after it.  `fresh` says that the character is
the first of its line or follows a blank, and `ahead` is the next character of the line.
-/
def step (mode : Mode) (fresh : Bool) (c : Char) (ahead : Option Char) : Region × Mode :=
  match mode with
  | .code =>
    if c = ';' && fresh then (.lineComment, .lineComment)
    else if c = '/' && ahead = some '*' then (.blockComment, .opening)
    else if c = '"' then (.literal .double, .literal .double)
    else if c = '\'' then (.literal .single, .literal .single)
    else (.code, .code)
  | .lineComment => (.lineComment, .lineComment)
  | .blockComment =>
    if c = '*' && ahead = some '/' then (.blockComment, .closing)
    else (.blockComment, .blockComment)
  | .opening => (.blockComment, .blockComment)
  | .closing => (.blockComment, .code)
  | .literal quote =>
    if c = escape && ahead.isSome then (.literal quote, .escaped quote)
    else if c = quote.char then (.literal quote, .code)
    else (.literal quote, .literal quote)
  | .escaped quote => (.literal quote, .literal quote)

/-- The cells of the rest of a line, and the mode at its end. -/
def readFrom (mode : Mode) (fresh : Bool) : List Char → List Cell × Mode
  | [] => ([], mode)
  | c :: rest =>
    let (region, next) := mode.step fresh c rest.head?
    let (cells, last) := next.readFrom (isBlank c) rest
    (⟨c, region⟩ :: cells, last)

/-- The cells of a line, and the mode at its end. -/
def read (mode : Mode) (line : List Char) : List Cell × Mode :=
  mode.readFrom true line

/-- The mode after a line break: only a block comment goes on. -/
def afterBreak : Mode → Mode
  | .blockComment => .blockComment
  | _ => .code

theorem readFrom_chars (mode : Mode) (fresh : Bool) (line : List Char) :
    (mode.readFrom fresh line).1.map Cell.char = line := by
  induction line generalizing mode fresh with
  | nil => rfl
  | cons c rest ih => simp [readFrom, ih]

/-- Reading a line keeps its characters. -/
@[simp] theorem read_chars (mode : Mode) (line : List Char) :
    (mode.read line).1.map Cell.char = line :=
  readFrom_chars mode true line

end Mode

end ScriptOutline
