/-
**Places in a YAML text.**

Blocks are told apart by the columns they start at, and a key has to stand on one line with the
colon after it, so a reader knows the line and the column of what is left of the text.  Between
tokens there are blanks, line breaks and comments.

Main definitions:

* `Yaml.isBreak` — line breaks;
* `Yaml.Cursor` — what is left of a text, and where it starts;
* `Yaml.Cursor.skip` — the next token;
* `Yaml.Cursor.afterKey?` — what follows the colon after a key;
* `Yaml.unifyBreaks` — a text in which the usual line breaks are line feeds.
-/

set_option relaxedAutoImplicit false
set_option autoImplicit false

namespace ScriptOutline.Yaml

/-! ### Characters -/

/-- Whether a character breaks a line; in texts of scalars the two separators stay as they are. -/
def isBreak (c : Char) : Bool :=
  c = '\n' || c = '\u2028' || c = '\u2029'

/-- A text in which every line break but the two separators is a line feed. -/
def unifyBreaks : List Char → List Char
  | [] => []
  | '\r' :: '\n' :: rest => '\n' :: unifyBreaks rest
  | c :: rest => (if c = '\r' || c = '\u0085' then '\n' else c) :: unifyBreaks rest

/-- Whether a character may stand in a text at all: controls may not. -/
def isAllowed (c : Char) : Bool :=
  c = '\t' || c = '\n' ||
    (' ' ≤ c && c ≤ '~') || ('\u00A0' ≤ c && c ≤ '\uFFFD') || '\uFFFF' < c

/-! ### Tokens -/

/-- Whether nothing, or a blank, is left first. -/
def startsBlank : List Char → Bool
  | [] => true
  | c :: _ => c = ' ' || c = '\t' || isBreak c

/-- Whether a text starts with a dash that begins an item. -/
def startsItem : List Char → Bool
  | '-' :: rest => startsBlank rest
  | _ => false

/-- Whether a text starts with the three dashes or dots that mark the bounds of a value. -/
def startsMark : List Char → Bool
  | a :: b :: c :: rest => (a = '-' || a = '.') && b = a && c = a && startsBlank rest
  | _ => false

/-- What follows the colon after a key; outside of brackets a blank has to follow it. -/
def afterColon? (flow : Bool) : List Char → Option (List Char)
  | ':' :: rest => if flow || startsBlank rest then some rest else none
  | _ => none

/-! ### Places -/

/-- What is left of a text, and where it starts. -/
structure Cursor where
  rest : List Char
  line : Nat
  column : Nat
  /-- Whether only indentation and dashes stand before it on its line, so that a block may start. -/
  fresh : Bool
  deriving DecidableEq, Repr

/--
The next token of a text.  Tabs are passed over inside of brackets, and after another token on the
line.
-/
def skipFrom (flow comment fresh : Bool) (line column : Nat) : List Char → Cursor
  | [] => ⟨[], line, column, fresh⟩
  | c :: rest =>
    if isBreak c then skipFrom flow false true (line + 1) 0 rest
    else if comment || c = '#' then skipFrom flow true fresh line (column + 1) rest
    else if c = ' ' || (c = '\t' && (flow || !fresh)) then
      skipFrom flow false fresh line (column + 1) rest
    else ⟨c :: rest, line, column, fresh⟩

namespace Cursor

/-- The start of a text.  A byte order mark there is passed over, but takes a column. -/
def start : List Char → Cursor
  | '\uFEFF' :: rest => ⟨rest, 0, 1, true⟩
  | cs => ⟨cs, 0, 0, true⟩

/-- The place after a character that ends a token. -/
def past (k : Cursor) (rest : List Char) : Cursor :=
  ⟨rest, k.line, k.column + 1, false⟩

/-- The next token, inside of brackets or outside of them. -/
def skip (k : Cursor) (flow : Bool) : Cursor :=
  skipFrom flow false k.fresh k.line k.column k.rest

/-- Whether the bounds of a value are marked here. -/
def atMark (k : Cursor) : Bool :=
  k.column = 0 && startsMark k.rest

/--
The place behind the colon that makes what stands between two places a key.  The colon stands on the
line on which the key starts, and at most 1024 characters behind its start.
-/
def afterKey? (flow : Bool) (start stop : Cursor) : Option Cursor :=
  let colon := stop.skip flow
  if colon.line = start.line && colon.column ≤ start.column + 1024 then
    (afterColon? flow colon.rest).map colon.past
  else none

end Cursor

end ScriptOutline.Yaml
