/-
**Tokens of JSON text.**

A text is cut into tokens one character at a time: marks of structure, strings with their escapes
resolved, and bare words, which are numbers or the three names.  A bare word ends before the first
character that cannot stand in one.  Escaped surrogates have to come in pairs.

Main definitions:

* `Json.Token` — a mark of structure, or a value without parts;
* `Json.LexState` — what the reader is inside of;
* `Json.bareValue?` — the value that a bare word stands for;
* `Json.tokens?` — the tokens of a text.
-/

import ScriptOutline.Json

set_option relaxedAutoImplicit false
set_option autoImplicit false

namespace ScriptOutline.Json

/-- A token: a mark of structure, or a value without parts. -/
inductive Token where
  | beginArray
  | endArray
  | beginObject
  | endObject
  | comma
  | colon
  | value (v : Json)

/-! ### Bare words -/

/-- Whether a character can stand in a number or a name. -/
def isBare (c : Char) : Bool :=
  c.isAlphanum || c = '+' || c = '-' || c = '.'

/-- Whether a text is made of the digits 0 to 9, at least one. -/
def isDigitRun (cs : List Char) : Bool :=
  !cs.isEmpty && cs.all Char.isDigit

/-- Whether digits are the whole part of a number: zero alone, or a first digit that is not zero. -/
def isWhole (cs : List Char) : Bool :=
  isDigitRun cs && (cs.length = 1 || cs.head? ≠ some '0')

/-- Whether a text is an exponent, or empty. -/
def isExponent : List Char → Bool
  | [] => true
  | mark :: rest =>
    (mark = 'e' || mark = 'E') &&
      match rest with
      | '+' :: digits => isDigitRun digits
      | '-' :: digits => isDigitRun digits
      | digits => isDigitRun digits

/-- Whether a text is the fraction and the exponent of a number, either of which may be missing. -/
def isFraction : List Char → Bool
  | '.' :: rest =>
    isDigitRun (rest.takeWhile Char.isDigit) && isExponent (rest.dropWhile Char.isDigit)
  | rest => isExponent rest

/-- The number that digits stand for. -/
def natOfDigits (cs : List Char) : Nat :=
  cs.foldl (fun n c => 10 * n + (c.toNat - '0'.toNat)) 0

/-- The number that a bare word stands for. -/
def number? (cs : List Char) : Option Json :=
  let unsigned := if cs.head? = some '-' then cs.tail else cs
  let whole := unsigned.takeWhile Char.isDigit
  let rest := unsigned.dropWhile Char.isDigit
  if !isWhole whole || !isFraction rest then none
  else if !rest.isEmpty then some (.decimal (String.ofList cs))
  else if cs.head? = some '-' then
    if natOfDigits whole = 0 then some (.decimal (String.ofList cs))
    else some (.number (-(natOfDigits whole : Int)))
  else some (.number (natOfDigits whole))

/-- The value that a bare word stands for. -/
def bareValue? (cs : List Char) : Option Json :=
  if cs = "null".toList then some .null
  else if cs = "true".toList then some (.bool true)
  else if cs = "false".toList then some (.bool false)
  else number? cs

/-! ### Lexing -/

/-- What the reader is inside of.  Texts are kept backwards. -/
inductive LexState where
  | between
  | bare (word : List Char)
  | inString (text : List Char)
  /-- After a backslash. -/
  | escape (text : List Char)
  /--
  Inside an escaped code unit: `owed + 1` digits are missing, `unit` is what was read of it, and
  `high` is the first half of a pair that it has to complete.
  -/
  | unicode (text : List Char) (high : Option Nat) (owed unit : Nat)
  /-- After the first half of a pair: a backslash has to follow, and then the letter u. -/
  | pairBackslash (text : List Char) (high : Nat)
  | pairLetter (text : List Char) (high : Nat)

/-- The value of a hexadecimal digit. -/
def hexValue? (c : Char) : Option Nat :=
  if c.isDigit then some (c.toNat - '0'.toNat)
  else if 'a' ≤ c && c ≤ 'f' then some (c.toNat - 'a'.toNat + 10)
  else if 'A' ≤ c && c ≤ 'F' then some (c.toNat - 'A'.toNat + 10)
  else none

/-- The state after a whole code unit. -/
def afterUnit? (text : List Char) (high : Option Nat) (unit : Nat) : Option LexState :=
  match high with
  | some first =>
    if 0xDC00 ≤ unit && unit ≤ 0xDFFF then
      some (.inString (Char.ofNat (0x10000 + (first - 0xD800) * 0x400 + (unit - 0xDC00)) :: text))
    else none
  | none =>
    if 0xD800 ≤ unit && unit ≤ 0xDBFF then some (.pairBackslash text unit)
    else if 0xDC00 ≤ unit && unit ≤ 0xDFFF then none
    else some (.inString (Char.ofNat unit :: text))

/-- The state after the character that follows a backslash. -/
def afterEscape? (text : List Char) (c : Char) : Option LexState :=
  if c = 'u' then some (.unicode text none 3 0)
  else if c = '"' || c = '\\' || c = '/' then some (.inString (c :: text))
  else if c = 'b' then some (.inString ('\x08' :: text))
  else if c = 'f' then some (.inString ('\x0c' :: text))
  else if c = 'n' then some (.inString ('\n' :: text))
  else if c = 'r' then some (.inString ('\r' :: text))
  else if c = 't' then some (.inString ('\t' :: text))
  else none

/-- One character between tokens. -/
def stepBetween? (c : Char) : Option (List Token × LexState) :=
  if c = ' ' || c = '\n' || c = '\t' || c = '\r' then some ([], .between)
  else if c = '[' then some ([.beginArray], .between)
  else if c = ']' then some ([.endArray], .between)
  else if c = '{' then some ([.beginObject], .between)
  else if c = '}' then some ([.endObject], .between)
  else if c = ',' then some ([.comma], .between)
  else if c = ':' then some ([.colon], .between)
  else if c = '"' then some ([], .inString [])
  else if isBare c then some ([], .bare [c])
  else none

/-- One character: the tokens it completes and the state after it. -/
def lexStep? (state : LexState) (c : Char) : Option (List Token × LexState) :=
  match state with
  | .between => stepBetween? c
  | .bare word =>
    if isBare c then some ([], .bare (c :: word))
    else
      match bareValue? word.reverse, stepBetween? c with
      | some v, some (tokens, next) => some (.value v :: tokens, next)
      | _, _ => none
  | .inString text =>
    if c = '"' then some ([.value (.string (String.ofList text.reverse))], .between)
    else if c = '\\' then some ([], .escape text)
    else if c.toNat < 0x20 then none
    else some ([], .inString (c :: text))
  | .escape text => (afterEscape? text c).map fun next => ([], next)
  | .unicode text high owed unit =>
    match hexValue? c with
    | none => none
    | some digit =>
      let unit := unit * 16 + digit
      match owed with
      | 0 => (afterUnit? text high unit).map fun next => ([], next)
      | owed + 1 => some ([], .unicode text high owed unit)
  | .pairBackslash text high => if c = '\\' then some ([], .pairLetter text high) else none
  | .pairLetter text high => if c = 'u' then some ([], .unicode text (some high) 3 0) else none

/-- The tokens of the rest of a text. -/
def tokensFrom? (state : LexState) : List Char → Option (List Token)
  | [] =>
    match state with
    | .between => some []
    | .bare word => (bareValue? word.reverse).map fun v => [.value v]
    | _ => none
  | c :: rest =>
    match lexStep? state c with
    | none => none
    | some (tokens, next) => (tokensFrom? next rest).map (tokens ++ ·)

/-- The tokens of a text. -/
def tokens? (cs : List Char) : Option (List Token) :=
  tokensFrom? .between cs

end ScriptOutline.Json
