/-
**Scanned source texts.**

Scanning never fails: an open block comment runs to the end of the text, an open literal to the end
of its line, and an opening brace that is never closed has no partner.

Main definitions:

* `linesOf` — the lines of a text, without their breaks;
* `Source`, `Source.scan` — a scanned text;
* `Source.matchingBrace?` — the brace that closes an opening one;
* `Source.depthBefore` — the number of braces open before a position;
* `Source.spotsFrom` — the cells from a position on.

Main results:

* `readLines_length` — reading keeps the number of lines.
-/

import ScriptOutline.Source.Mode
import ScriptOutline.Source.Spot

set_option relaxedAutoImplicit false
set_option autoImplicit false

namespace ScriptOutline

/-! ### Lines of a text -/

/-- The pieces of a text between its line feeds. -/
def splitBreaks : List Char → List (List Char)
  | [] => [[]]
  | c :: rest =>
    if c = '\n' then [] :: splitBreaks rest
    else
      match splitBreaks rest with
      | [] => [[c]]
      | line :: lines => (c :: line) :: lines

/-- A line without the carriage return that may stand before its line feed. -/
def dropReturn (line : List Char) : List Char :=
  if line.getLast? = some '\r' then line.dropLast else line

/-- The lines of a text, without their breaks. -/
def linesOf (text : List Char) : List (List Char) :=
  (splitBreaks text).map dropReturn

/-! ### Scanning -/

/-- A scanned text: its lines, and the brace pairs of its code. -/
structure Source where
  lines : List Line
  bracePairs : List (Position × Position)
  deriving DecidableEq, Repr

/-- Reads lines one after the other, from a mode and a number of open braces on. -/
def readLines (mode : Mode) (depth : Nat) : List (List Char) → List Line
  | [] => []
  | line :: rest =>
    let (cells, last) := mode.read line
    ⟨cells, depth⟩ :: readLines last.afterBreak (depthAfter depth cells) rest

@[simp] theorem readLines_length (mode : Mode) (depth : Nat) (lines : List (List Char)) :
    (readLines mode depth lines).length = lines.length := by
  induction lines generalizing mode depth with
  | nil => rfl
  | cons line rest ih => simp [readLines, ih]

namespace Source

/-- A text, scanned. -/
def scan (text : List Char) : Source :=
  let lines := readLines .code 0 (linesOf text)
  ⟨lines, pairBraces [] (spotsOfLines 0 lines)⟩

/-- The line with a given number. -/
def line? (s : Source) (n : Nat) : Option Line :=
  s.lines[n]?

/-- The number of lines. -/
def lineCount (s : Source) : Nat :=
  s.lines.length

/-- The position just past the last character. -/
def endPosition (s : Source) : Position :=
  ⟨s.lineCount - 1, ((s.line? (s.lineCount - 1)).map Line.length).getD 0⟩

/-- The closing brace that goes with the opening brace at a position, if there is one. -/
def matchingBrace? (s : Source) (opening : Position) : Option Position :=
  s.bracePairs.lookup opening

/--
The number of braces open before a position: those open at the start of its line, plus the opening
less the closing braces before it on the line, and never below zero.
-/
def depthBefore (s : Source) (p : Position) : Nat :=
  match s.line? p.line with
  | none => 0
  | some l => (l.startDepth + braceBalance (l.cells.take p.column)).toNat

/-- The spots from a position on, up to the end of the text. -/
def spotsFrom (s : Source) (p : Position) : List Spot :=
  match s.lines.drop p.line with
  | [] => []
  | l :: rest => l.spotsFrom p.line p.column ++ spotsOfLines (p.line + 1) rest

end Source

end ScriptOutline
