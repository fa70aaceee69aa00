/-
**Hints at the type of an initializer.**

The hint is read off the text of the initializer, in which the insides of string literals are
blanked out: a numeral, one string literal, one bracketed literal, or the call of a class that is
built in.

Main definitions:

* `Hint`, `Hint.name` — the hints;
* `isInteger`, `isFloat` — the two kinds of numerals;
* `isEnclosed` — whether a text is one bracketed literal;
* `Hint.ofText?` — the hint that a text gives.
-/

import ScriptOutline.Source.Cell
import ScriptOutline.Text.Blank
import ScriptOutline.Text.Numeral

set_option relaxedAutoImplicit false
set_option autoImplicit false

namespace ScriptOutline

/-- A hint at the type of a value. -/
inductive Hint where
  | integer
  | float
  | string
  | array
  | object
  | map
  | buffer
  deriving DecidableEq, Repr

/-- The name of a hint. -/
def Hint.name : Hint → String
  | .integer => "Integer"
  | .float => "Float"
  | .string => "String"
  | .array => "Array"
  | .object => "Object"
  | .map => "Map"
  | .buffer => "Buffer"

/-! ### Numerals -/

/-- Whether a text is a whole number, with or without a sign. -/
def isInteger (cs : List Char) : Bool :=
  let unsigned := dropSign cs
  isHexadecimal unsigned || isDigits unsigned

/-- Whether a text is a number with a point, with or without a sign and an exponent. -/
def isFloat (cs : List Char) : Bool :=
  let unsigned := dropSign cs
  match unsigned.dropWhile isDecimalDigit with
  | '.' :: rest =>
    (!(unsigned.takeWhile isDecimalDigit).isEmpty || !(rest.takeWhile isDecimalDigit).isEmpty)
      && isExponentOrEmpty (rest.dropWhile isDecimalDigit)
  | _ => false

/-! ### Literals -/

/-- Whether a text starts and ends with a quote and holds no other. -/
def isBetween (quote : Char) : List Char → Bool
  | [] => false
  | c :: rest => c = quote && rest.getLast? = some quote && !rest.dropLast.contains quote

/-- Whether a bracket closes at the very end of a text that leaves `depth` of its kind open. -/
def bracketEndsText (opener closer : Char) (depth : Nat) : List Char → Bool
  | [] => false
  | c :: rest =>
    if c = opener then bracketEndsText opener closer (depth + 1) rest
    else if c = closer then
      if depth ≤ 1 then rest.isEmpty else bracketEndsText opener closer (depth - 1) rest
    else bracketEndsText opener closer depth rest

/-- Whether a text is one literal between brackets of a kind, such as `[1, 2]` but not `[1][0]`. -/
def isEnclosed (opener closer : Char) : List Char → Bool
  | [] => false
  | c :: rest => c = opener && bracketEndsText opener closer 1 rest

/-- The classes that are built in, with the hints that their calls give. -/
def builtInClasses : List (List Char × Hint) :=
  [("map".toList, .map), ("array".toList, .array), ("object".toList, .object),
   ("buffer".toList, .buffer)]

/--
Whether a text starts with a name and a parenthesis, and ends with a closing one.  The text is that
of one line, in which no line break stands between the two.
-/
def isCallOf (name cs : List Char) : Bool :=
  match afterWord? name cs with
  | some ('(' :: rest) => rest.getLast? = some ')'
  | _ => false

/-- The hint that the text of an initializer gives. -/
def Hint.ofText? (cs : List Char) : Option Hint :=
  let value := trim cs
  if isInteger value then some .integer
  else if isFloat value then some .float
  else if isBetween Quote.double.char value || isBetween Quote.single.char value then some .string
  else if isEnclosed '[' ']' value then some .array
  else if isEnclosed '{' '}' value then some .object
  else (builtInClasses.find? fun named => isCallOf named.1 value).map Prod.snd

end ScriptOutline
