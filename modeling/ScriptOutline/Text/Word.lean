/-
**Words, identifiers and keywords.**

A *word character* is alphabetic, a combining mark, a decimal digit, a connector such as the
underscore, or one of the two joiners, but none of the newest characters.  An *identifier* is a run
of word characters that does not start with a decimal digit.  Keywords are compared letter by letter
up to case; besides the capital, two signs of other ranges share a small letter: the long s and the
Kelvin sign.

Main definitions:

* `isWordChar`, `isIdentifierStart`, `isAlphanumeric` — classes of characters;
* `isIdentifier` — whether a whole text is an identifier;
* `identifier?` — the identifier at the start of a text, with what follows it;
* `afterWord?` — what follows a given word, up to case.

Main results:

* `identifier?_eq_some` — the identifier and what follows it make up the text.
-/

import ScriptOutline.Text.Alphabetic
import ScriptOutline.Text.Combining
import ScriptOutline.Text.Newest
import ScriptOutline.Text.Number

set_option relaxedAutoImplicit false
set_option autoImplicit false

namespace ScriptOutline

/-- The characters of the general category *Connector Punctuation*. -/
def connector : CodePoints :=
  [(0x5F, 0x5F), (0x203F, 0x2040), (0x2054, 0x2054), (0xFE33, 0xFE34), (0xFE4D, 0xFE4F),
   (0xFF3F, 0xFF3F)]

/-- The two characters with the property *Join Control*. -/
def joinControl : CodePoints :=
  [(0x200C, 0x200D)]

/-- Whether a character is a decimal digit of some script, and none of the newest ones. -/
def isDecimalDigit (c : Char) : Bool :=
  decimalDigit.has c && !newest.has c

/-- Whether a character can stand in a word. -/
def isWordChar (c : Char) : Bool :=
  (alphabetic.has c || decimalDigit.has c || connector.has c || combiningMark.has c
    || joinControl.has c) && !newest.has c

/-- Whether a character can start an identifier. -/
def isIdentifierStart (c : Char) : Bool :=
  isWordChar c && !isDecimalDigit c

/-- Whether a character is alphabetic or a numeral of any class; the newest ones count. -/
def isAlphanumeric (c : Char) : Bool :=
  alphabetic.has c || decimalDigit.has c || otherNumber.has c

/-- Whether a text is one identifier from its first character to its last. -/
def isIdentifier : List Char → Bool
  | [] => false
  | c :: rest => isIdentifierStart c && rest.all isWordChar

/-- The longest identifier at the start of a text, with what follows it. -/
def identifier? : List Char → Option (List Char × List Char)
  | [] => none
  | c :: rest =>
    if isIdentifierStart c then some (c :: rest.takeWhile isWordChar, rest.dropWhile isWordChar)
    else none

/-- The identifier at the start of a text and what follows it make up the text. -/
theorem identifier?_eq_some {cs name rest : List Char} (h : identifier? cs = some (name, rest)) :
    cs = name ++ rest := by
  cases cs with
  | nil => simp [identifier?] at h
  | cons c tail =>
    simp only [identifier?] at h
    split at h
    · simp only [Option.some.injEq, Prod.mk.injEq] at h
      obtain ⟨rfl, rfl⟩ := h
      simp
    · simp at h

/-! ### Keywords -/

/-- Whether a character is a small letter up to case. -/
def foldsTo (letter c : Char) : Bool :=
  c.toLower = letter || (letter = 's' && c = 'ſ') || (letter = 'k' && c = '\u212A')

/-- What follows a word in small letters at the start of a text, up to case. -/
def afterWord? : List Char → List Char → Option (List Char)
  | [], cs => some cs
  | _ :: _, [] => none
  | letter :: word, c :: cs => if foldsTo letter c then afterWord? word cs else none

/-- Whether a text is a given word in small letters, up to case. -/
def isWord (word cs : List Char) : Bool :=
  afterWord? word cs = some []

end ScriptOutline
