/-
**Records as JSON values.**

A record is an object with one member per field.  Reading one passes over members of other names,
but refuses a field that is given twice; a record may also be given as an array of its fields in
order.  A choice without parts is a string, or an object whose only member is that name with the
value null.

Main definitions:

* `Json.member`, `Json.memberIf` — the members of a field that is always, or sometimes, written;
* `Json.record?`, `Json.fields?` — the fields that a value gives;
* `Json.required?`, `Json.optional?` — a field that has to be there, and one that may be missing;
* `Json.asString?`, `Json.asBool?`, `Json.asCount?`, `Json.asVersion?`, `Json.asList?`,
  `Json.asName?` — values without fields.
-/

import ScriptOutline.Json
import ScriptOutline.Record

set_option relaxedAutoImplicit false
set_option autoImplicit false

namespace ScriptOutline.Json

/-! ### Writing -/

/-- The member of a field that is always written. -/
def member (key : String) (v : Json) : List (String × Json) :=
  [(key, v)]

/-- The member of a field that is written only if it has a value. -/
def memberIf {α : Type} (key : String) (write : α → Json) : Option α → List (String × Json)
  | some a => [(key, write a)]
  | none => []

/-- A count as a number. -/
def count (n : Nat) : Json :=
  .number n

/-- An optional value, or null. -/
def orNull {α : Type} (write : α → Json) : Option α → Json
  | some a => write a
  | none => .null

/-! ### Reading records -/

/-- The fields that an object or an array gives. -/
def record? : Json → Option (Record Json)
  | .object members => some (.byName members)
  | .array items => some (.inOrder items)
  | _ => none

/-- The values of the fields of a record. -/
def fields? (keys : List String) (v : Json) : Option (List (Option Json)) :=
  v.record?.bind (Record.fields? keys)

/-- A field that has to be there. -/
def required? {α : Type} (read : Json → Option α) (v : Option Json) : Option α :=
  v.bind read

/-- A field that may be missing or null. -/
def optional? {α : Type} (read : Json → Option α) : Option Json → Option (Option α)
  | none => some none
  | some .null => some none
  | some v => (read v).map some

/-! ### Reading other values -/

/-- A string. -/
def asString? : Json → Option String
  | .string s => some s
  | _ => none

/-- A truth value. -/
def asBool? : Json → Option Bool
  | .bool b => some b
  | _ => none

/-- A count that fits 64 bits. -/
def asCount? : Json → Option Nat
  | .number n => if 0 ≤ n && n.toNat < UInt64.size then some n.toNat else none
  | _ => none

/-- A version that fits 32 bits with a sign. -/
def asVersion? : Json → Option Int32
  | .number n =>
    if Int32.minValue.toInt ≤ n && n ≤ Int32.maxValue.toInt then some (Int32.ofInt n) else none
  | _ => none

/-- An array of values. -/
def asList? {α : Type} (read : Json → Option α) : Json → Option (List α)
  | .array items => items.mapM read
  | _ => none

/-- The name of a choice without parts. -/
def asName? : Json → Option String
  | .string s => some s
  | .object [(s, .null)] => some s
  | _ => none

/-- A choice without parts, by the names of all choices. -/
def asChoice? {α : Type} (name : α → String) (choices : List α) (v : Json) : Option α :=
  (asName? v).bind fun s => choices.find? fun choice => name choice = s

end ScriptOutline.Json
