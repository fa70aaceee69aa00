/-
**Blanks and trimming.**

A blank is a character with the Unicode property *White Space*: the ASCII blanks, the next-line
control, the no-break space, the wide space and the two separators of lines and paragraphs.
A zero-width space and a byte-order mark are not blanks.

Main definitions:

* `isBlank` — whether a character is a blank;
* `trimStart`, `trimEnd`, `trim` — a text without its outer blanks;
* `afterBlanks?` — what follows one or more blanks.
-/

import ScriptOutline.Text.CodePoints

set_option relaxedAutoImplicit false
set_option autoImplicit false

namespace ScriptOutline

/-- The characters with the property *White Space*. -/
def whiteSpace : CodePoints :=
  [(0x9, 0xD), (0x20, 0x20), (0x85, 0x85), (0xA0, 0xA0), (0x1680, 0x1680), (0x2000, 0x200A),
   (0x2028, 0x2029), (0x202F, 0x202F), (0x205F, 0x205F), (0x3000, 0x3000)]

/-- Whether a character is a blank. -/
def isBlank (c : Char) : Bool :=
  whiteSpace.has c

/-- A text without its leading blanks. -/
def trimStart (cs : List Char) : List Char :=
  cs.dropWhile isBlank

/-- A text without its trailing blanks. -/
def trimEnd (cs : List Char) : List Char :=
  (cs.reverse.dropWhile isBlank).reverse

/-- A text without its leading and trailing blanks. -/
def trim (cs : List Char) : List Char :=
  trimEnd (trimStart cs)

/-- What follows one or more blanks, or nothing where the text does not start with a blank. -/
def afterBlanks? : List Char → Option (List Char)
  | [] => none
  | c :: rest => if isBlank c then some (trimStart rest) else none

end ScriptOutline
