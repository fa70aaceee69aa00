/-
**Cells in reading order.**

Most questions about a source text are answered by walking over its cells from some position on.
A spot is a cell with its position; each line ends with the spot of its line break, just past its
last character and in the region of that character.

Main definitions:

* `Spot` — a cell at a position;
* `spotsOfCells`, `Line.spots`, `spotsOfLines` — the spots of a run of cells, of a line with its
  break, and of consecutive lines;
* `pairBraces` — every brace pair, as the positions of its two ends.

Main results:

* `spotsOfCells_cells` — walking keeps the cells.
-/

import ScriptOutline.Source.Line
import ScriptOutline.Source.Position

set_option relaxedAutoImplicit false
set_option autoImplicit false

namespace ScriptOutline

/-- A cell at its position. -/
structure Spot where
  position : Position
  cell : Cell
  deriving DecidableEq, Repr

namespace Spot

/-- Whether a spot is a line break. -/
def isBreak (s : Spot) : Bool :=
  s.cell.char = '\n'

end Spot

/-- The spots of a run of cells that starts at a column of a line. -/
def spotsOfCells (line column : Nat) : List Cell → List Spot
  | [] => []
  | c :: rest => ⟨⟨line, column⟩, c⟩ :: spotsOfCells line (column + 1) rest

/-- Walking keeps the cells. -/
@[simp] theorem spotsOfCells_cells (line column : Nat) (cells : List Cell) :
    (spotsOfCells line column cells).map Spot.cell = cells := by
  induction cells generalizing column with
  | nil => rfl
  | cons c rest ih => simp [spotsOfCells, ih]

/-- The spots of a line from a column on, up to and including its line break. -/
def Line.spotsFrom (l : Line) (line column : Nat) : List Spot :=
  spotsOfCells line column (l.cells.drop column) ++ [⟨⟨line, l.length⟩, ⟨'\n', l.breakRegion⟩⟩]

/-- The spots of consecutive lines, of which the first has the number `line`. -/
def spotsOfLines (line : Nat) : List Line → List Spot
  | [] => []
  | l :: rest => l.spotsFrom line 0 ++ spotsOfLines (line + 1) rest

/-! ### Brace pairs -/

/--
Every pair of braces of the code, where `pending` are the opening braces read before, the last one
first.  A closing brace goes with the last opening brace that is still pending; one that finds none
is passed over.
-/
def pairBraces (pending : List Position) : List Spot → List (Position × Position)
  | [] => []
  | s :: rest =>
    if s.cell.isCodeChar '{' then pairBraces (s.position :: pending) rest
    else if s.cell.isCodeChar '}' then
      match pending with
      | [] => pairBraces [] rest
      | opening :: pending => (opening, s.position) :: pairBraces pending rest
    else pairBraces pending rest

end ScriptOutline
