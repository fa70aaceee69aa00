/-
**Styled text.**

Output for a terminal is a sequence of pieces, plain or in a style.  With colour, a styled piece
stands between the sequence that switches its style on and the one that switches every style off;
where the piece itself switches styles off, its own is switched on again.  Without colour only the
text remains.

Main definitions:

* `Style`, `Piece` — a style, and a piece of output;
* `padRight` — a text filled up with blanks;
* `Piece.render`, `renderPieces` — pieces as text, with and without colour.
-/

set_option relaxedAutoImplicit false
set_option autoImplicit false

namespace ScriptOutline

/-- The styles of terminal output. -/
inductive Style where
  | bold
  | dimmed
  | red
  | green
  | yellow
  | blue
  /-- Bold and cyan at once. -/
  | title
  deriving DecidableEq, Repr

namespace Style

/-- The codes of a style. -/
def codes : Style → List Char
  | .bold => "1".toList
  | .dimmed => "2".toList
  | .red => "31".toList
  | .green => "32".toList
  | .yellow => "33".toList
  | .blue => "34".toList
  | .title => "1;36".toList

/-- A sequence that switches codes on. -/
def sequence (codes : List Char) : List Char :=
  '\x1b' :: '[' :: codes ++ ['m']

/-- The sequence that switches a style on. -/
def start (s : Style) : List Char :=
  sequence s.codes

/-- The sequence that switches every style off. -/
def stop : List Char :=
  sequence ['0']

/-- A text in which `again` follows each sequence that switches every style off. -/
def resume (again : List Char) : List Char → List Char
  | '\x1b' :: '[' :: '0' :: 'm' :: rest => stop ++ again ++ resume again rest
  | c :: rest => c :: resume again rest
  | [] => []

/-- A text in a style. -/
def paint (s : Style) (text : List Char) : List Char :=
  s.start ++ resume s.start text ++ stop

end Style

/-- A piece of output. -/
structure Piece where
  style : Option Style
  text : String
  deriving DecidableEq, Repr

namespace Piece

/-- A piece without a style. -/
def plain (text : String) : Piece :=
  ⟨none, text⟩

/-- A piece in a style. -/
def styled (style : Style) (text : String) : Piece :=
  ⟨some style, text⟩

/-- A line break. -/
def newline : Piece :=
  plain "\n"

/-- A piece as text. -/
def render (color : Bool) (p : Piece) : List Char :=
  match p.style with
  | some style => if color then style.paint p.text.toList else p.text.toList
  | none => p.text.toList

end Piece

/-- Pieces as text. -/
def renderPieces (color : Bool) (pieces : List Piece) : List Char :=
  pieces.flatMap (Piece.render color)

/-- A text filled up with blanks at its end to a number of characters. -/
def padRight (width : Nat) (s : String) : String :=
  s ++ String.ofList (List.replicate (width - s.length) ' ')

end ScriptOutline
