/-
**Pieces of numerals.**

A numeral may start with a sign.  It is hexadecimal, with ASCII digits after a zero and the letter
x, or decimal, with decimal digits of any script, an optional fraction and an optional exponent.

Main definitions:

* `dropSign` — a text without the sign it may start with;
* `isHexadecimal` — whether a text is an unsigned hexadecimal numeral;
* `isExponentOrEmpty` — whether a text is an exponent, or empty.
-/

import ScriptOutline.Text.Word

set_option relaxedAutoImplicit false
set_option autoImplicit false

namespace ScriptOutline

/-- A text without the sign it may start with. -/
def dropSign : List Char → List Char
  | [] => []
  | c :: rest => if c = '+' || c = '-' then rest else c :: rest

/-- Whether a character is a hexadecimal digit of ASCII. -/
def isHexDigit (c : Char) : Bool :=
  c.isDigit || ('a' ≤ c && c ≤ 'f') || ('A' ≤ c && c ≤ 'F')

/-- Whether a text is made of decimal digits, at least one. -/
def isDigits (cs : List Char) : Bool :=
  !cs.isEmpty && cs.all isDecimalDigit

/-- Whether a text is an unsigned hexadecimal numeral. -/
def isHexadecimal : List Char → Bool
  | '0' :: mark :: digits =>
    (mark = 'x' || mark = 'X') && !digits.isEmpty && digits.all isHexDigit
  | _ => false

/-- Whether a text is an exponent such as `e-7`, or empty. -/
def isExponentOrEmpty : List Char → Bool
  | [] => true
  | mark :: rest => (mark = 'e' || mark = 'E') && isDigits (dropSign rest)

end ScriptOutline
