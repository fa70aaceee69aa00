/-
**Constants among default values.**

A default value is a constant if it is a numeral, one string literal, or one of the words `true`,
`false` and `unset`.  Everything else has to be evaluated.

Main definitions:

* `isNumeral` — whether a text is a numeral;
* `isStringLiteral` — whether a text is one string literal from its first quote to its last;
* `DefaultValue.ofText` — the default value with a given text.
-/

import ScriptOutline.Parameter
import ScriptOutline.Source.Mode
import ScriptOutline.Text.Numeral

set_option relaxedAutoImplicit false
set_option autoImplicit false

namespace ScriptOutline

/-- Whether a text is an unsigned decimal numeral, with or without a fraction and an exponent. -/
def isDecimalNumeral (cs : List Char) : Bool :=
  let whole := cs.takeWhile isDecimalDigit
  match cs.dropWhile isDecimalDigit with
  | '.' :: rest =>
    let fraction := rest.takeWhile isDecimalDigit
    !(whole.isEmpty && fraction.isEmpty) && isExponentOrEmpty (rest.dropWhile isDecimalDigit)
  | rest => !whole.isEmpty && isExponentOrEmpty rest

/-- Whether a text is a numeral. -/
def isNumeral (cs : List Char) : Bool :=
  let unsigned := dropSign cs
  isHexadecimal unsigned || isDecimalNumeral unsigned

/--
Whether a literal that was opened by a quote closes at the very end of a text.  An escape takes the
character after it into the literal, unless that is a line break.
-/
def closesAtEnd (quote : Char) : List Char → Bool
  | [] => false
  | [c] => c = quote
  | c :: d :: rest =>
    if c = quote then false
    else if c = Mode.escape then d ≠ '\n' && closesAtEnd quote rest
    else closesAtEnd quote (d :: rest)

/-- Whether a text is one string literal. -/
def isStringLiteral : List Char → Bool
  | [] => false
  | c :: rest => (c = Quote.double.char || c = Quote.single.char) && closesAtEnd c rest

/-- The words that name a constant. -/
def constantWords : List (List Char) :=
  ["true".toList, "false".toList, "unset".toList]

/-- Whether a text is a constant. -/
def isConstant (cs : List Char) : Bool :=
  isNumeral cs || isStringLiteral cs || constantWords.any (isWord · cs)

/-- The default value that a text stands for, without its outer blanks. -/
def DefaultValue.ofText (cs : List Char) : DefaultValue :=
  let value := trim cs
  ⟨if isConstant value then .constant else .expression, String.ofList value⟩

end ScriptOutline
