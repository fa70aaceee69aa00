/-
**YAML values.**

A value is a scalar, a list or a map.  What a scalar stands for is decided by who reads it: quoted
or not it is a text, and without quotes it can also be a truth value or a count.  Where nothing is
written, there is an empty scalar without quotes, which can also be a list or a map with nothing in
it.

Main definitions:

* `Yaml` — a value;
* `Yaml.asText?`, `Yaml.asBool?`, `Yaml.asCount?` — scalars as what they stand for;
* `Yaml.asList?`, `Yaml.record?` — lists and maps.
-/

import ScriptOutline.Record

set_option relaxedAutoImplicit false
set_option autoImplicit false

namespace ScriptOutline

/-- A YAML value. -/
inductive Yaml where
  /-- A scalar without quotes. -/
  | plain (text : String)
  | quoted (text : String)
  | list (items : List Yaml)
  /-- A map, whose keys can be values of any kind. -/
  | map (members : List (Yaml × Yaml))
  deriving Inhabited, Repr

namespace Yaml

/-- A scalar where nothing is written. -/
def empty : Yaml :=
  .plain ""

/-- The text of a scalar. -/
def asText? : Yaml → Option String
  | .plain text | .quoted text => some text
  | _ => none

/-- The truth value that a text stands for. -/
def boolOf? (text : String) : Option Bool :=
  if text = "true" || text = "True" || text = "TRUE" then some true
  else if text = "false" || text = "False" || text = "FALSE" then some false
  else none

/-- The truth value of a scalar without quotes. -/
def asBool? : Yaml → Option Bool
  | .plain text => boolOf? text
  | _ => none

/-! ### Counts -/

/-- The value of a digit in a base of at most sixteen. -/
def digit? (base : Nat) (c : Char) : Option Nat :=
  let value :=
    if c.isDigit then c.toNat - '0'.toNat
    else if 'a' ≤ c && c ≤ 'f' then c.toNat - 'a'.toNat + 10
    else if 'A' ≤ c && c ≤ 'F' then c.toNat - 'A'.toNat + 10
    else base
  if value < base then some value else none

/-- The number that digits in a base stand for, at least one. -/
def natOf? (base : Nat) (cs : List Char) : Option Nat :=
  if cs.isEmpty then none
  else cs.foldlM (fun n c => (digit? base c).map (base * n + ·)) 0

/-- A number that fits 64 bits. -/
def fitting? (n : Nat) : Option UInt64 :=
  if n < UInt64.size then some (UInt64.ofNat n) else none

/--
The count that a text stands for: after a plus, which may be missing, digits in base ten, or in base
sixteen, eight or two after a zero and a letter.  Other digits do not follow a zero.
-/
def countOf? (text : List Char) : Option UInt64 :=
  let unsigned := if text.head? = some '+' then text.tail else text
  match unsigned with
  | '0' :: 'x' :: digits => (natOf? 16 digits).bind fitting?
  | '0' :: 'o' :: digits => (natOf? 8 digits).bind fitting?
  | '0' :: 'b' :: digits => (natOf? 2 digits).bind fitting?
  | ['0'] => some 0
  | '0' :: _ => none
  | digits => (natOf? 10 digits).bind fitting?

/-- The count of a scalar without quotes. -/
def asCount? : Yaml → Option UInt64
  | .plain text => countOf? text.toList
  | _ => none

/-! ### Containers -/

/-- The items of a list. -/
def asList? : Yaml → Option (List Yaml)
  | .list items => some items
  | .plain "" => some []
  | _ => none

/-- A member with its name, if its key is a text. -/
def named? (member : Yaml × Yaml) : Option (String × Yaml) :=
  member.1.asText?.map (·, member.2)

/-- The fields that a map gives; all of its keys have to be texts. -/
def record? : Yaml → Option (Record Yaml)
  | .map members => (members.mapM named?).map .byName
  | .plain "" => some (.byName [])
  | _ => none

end Yaml

end ScriptOutline
