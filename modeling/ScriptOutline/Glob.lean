/-
**Patterns for paths.**

A pattern is compared with a whole path, byte by byte.  Besides literal characters it has places
for one byte, for any bytes, for one byte out of a class, for one of several branches, and for any
number of folders at its start, at its end or between two slashes.

Main definitions:

* `Glob.Token` — one place of a pattern;
* `Glob.Marks` — which starts of a path a pattern covers so far;
* `Glob.advance` — one place more;
* `Glob` — a pattern, `Glob.covers` — whether it covers a path.
-/

import ScriptOutline.Text.Utf8

set_option relaxedAutoImplicit false
set_option autoImplicit false

namespace ScriptOutline

namespace Glob

/-- One place of a pattern. -/
inductive Token where
  | literal (c : Char)
  /-- Any one byte. -/
  | anyByte
  /-- Any bytes. -/
  | anyBytes
  /-- Any number of folders at the start. -/
  | leadingFolders
  /-- A slash and anything below it. -/
  | trailingFolders
  /-- A slash, or two with any number of folders between them. -/
  | innerFolders
  /-- One byte of the characters of some ranges, or one that is none of these. -/
  | oneOf (negated : Bool) (ranges : List (Char × Char))
  /-- One of several branches. -/
  | choice (branches : List (List Token))
  deriving Inhabited, Repr

/-! ### Marks -/

/-- For each start of a text, from the empty one to the whole, whether it is covered. -/
abbrev Marks := List Bool

/-- The marks of a text of which only the empty start is covered. -/
def origin (text : List UInt8) : Marks :=
  true :: text.map fun _ => false

/-- The starts that are covered with one more byte that passes a test. -/
def shift (text : List UInt8) (p : UInt8 → Bool) (marks : Marks) : Marks :=
  false :: List.zipWith (fun b mark => mark && p b) text marks

/-- The starts that are covered with any bytes more, where `seen` says that one was before these. -/
def spreadFrom (seen : Bool) : Marks → Marks
  | [] => []
  | mark :: rest => (seen || mark) :: spreadFrom (seen || mark) rest

/-- The starts that are covered with any bytes more. -/
def spread (marks : Marks) : Marks :=
  spreadFrom false marks

/-- The starts that are covered in one of two ways. -/
def union (a b : Marks) : Marks :=
  List.zipWith (· || ·) a b

/-- The starts that are covered with some bytes more. -/
def shiftAll (text : List UInt8) (bytes : List UInt8) (marks : Marks) : Marks :=
  bytes.foldl (fun marks b => shift text (· = b) marks) marks

/-- The starts that are covered with a slash more. -/
def shiftSlash (text : List UInt8) (marks : Marks) : Marks :=
  shiftAll text (Utf8.encode ['/']) marks

/-! ### Places -/

/-- Whether a byte lies in a range of bytes. -/
def liesIn (b : UInt8) (range : UInt8 × UInt8) : Bool :=
  range.1 ≤ b && b ≤ range.2

/--
The bytes of a range of characters: those of the first character, those of the last one, and those
between the last byte of the one and the first byte of the other.
-/
def rangeBytes (range : Char × Char) : List (UInt8 × UInt8) :=
  let low := Utf8.encode [range.1]
  let high := Utf8.encode [range.2]
  let single (b : UInt8) : UInt8 × UInt8 := (b, b)
  if range.1 = range.2 then low.map single
  else
    low.dropLast.map single ++ [(low.getLast?.getD 0, high.head?.getD 0)] ++ high.tail.map single

/-- Whether a byte is one of the characters of some ranges. -/
def inRanges (ranges : List (Char × Char)) (b : UInt8) : Bool :=
  (ranges.flatMap rangeBytes).any (liesIn b)

mutual

/-- Whether a place stands for the empty text only, because every branch of it does. -/
def Token.isVoid : Token → Bool
  | .choice branches => areVoidBranches branches
  | _ => false

/-- Whether all places of a pattern are void. -/
def areVoid : List Token → Bool
  | [] => true
  | token :: rest => token.isVoid && areVoid rest

/-- Whether all places of some branches are void. -/
def areVoidBranches : List (List Token) → Bool
  | [] => true
  | branch :: rest => areVoid branch && areVoidBranches rest

end

mutual

/-- The starts that are covered with one place more. -/
def Token.advance (text : List UInt8) : Token → Marks → Marks
  | .literal c, marks => shiftAll text (Utf8.encode [c]) marks
  | .anyByte, marks => shift text (fun _ => true) marks
  | .anyBytes, marks => spread marks
  | .leadingFolders, marks => union marks (shiftSlash text (spread marks))
  | .trailingFolders, marks => spread (shiftSlash text marks)
  | .innerFolders, marks =>
    let slash := shiftSlash text marks
    union slash (shiftSlash text (spread slash))
  | .oneOf negated ranges, marks => shift text (fun b => inRanges ranges b != negated) marks
  | .choice branches, marks =>
    if areVoidBranches branches then marks else advanceAny text branches marks

/-- The starts that are covered with all places of a pattern more. -/
def advance (text : List UInt8) : List Token → Marks → Marks
  | [], marks => marks
  | token :: rest, marks => advance text rest (token.advance text marks)

/-- The starts that are covered with one of some branches more; void branches do not count. -/
def advanceAny (text : List UInt8) : List (List Token) → Marks → Marks
  | [], marks => marks.map fun _ => false
  | branch :: rest, marks =>
    if areVoid branch then advanceAny text rest marks
    else union (advance text branch marks) (advanceAny text rest marks)

end

end Glob

/-- A pattern for paths. -/
structure Glob where
  tokens : List Glob.Token

/-- Whether a pattern covers a path.  Any number of folders, on their own, are any path. -/
def Glob.covers (g : Glob) (path : String) : Bool :=
  let text := Utf8.encode path.toList
  match g.tokens with
  | [.leadingFolders] => true
  | tokens => (Glob.advance text tokens (Glob.origin text)).getLast?.getD false

end ScriptOutline
