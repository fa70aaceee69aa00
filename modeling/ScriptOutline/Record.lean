/-
**Records of fields.**

A record gives its fields by name, in any order, or without names in the order of the record.
Fields of other names are passed over, but a field that is given twice is refused.

Main definitions:

* `Record` — fields by name or in order;
* `only?` — the value of the only field with a name;
* `Record.fields?`, `Record.leadingFields?` — the values of the fields of a record.
-/

set_option relaxedAutoImplicit false
set_option autoImplicit false

namespace ScriptOutline

/-- Fields by name, or in the order of a record. -/
inductive Record (ν : Type) where
  | byName (members : List (String × ν))
  | inOrder (items : List ν)

variable {ν : Type}

/-- The value of the only field with a name; a second one is refused. -/
def only? (key : String) (members : List (String × ν)) : Option (Option ν) :=
  match members.filter (·.1 = key) with
  | [] => some none
  | [(_, v)] => some (some v)
  | _ => none

namespace Record

/-- The values of fields; without names, all of them have to be there. -/
def fields? (keys : List String) : Record ν → Option (List (Option ν))
  | .byName members => keys.mapM (only? · members)
  | .inOrder items => if items.length = keys.length then some (items.map some) else none

/-- The values of fields; without names, the last ones may be missing. -/
def leadingFields? (keys : List String) : Record ν → Option (List (Option ν))
  | .byName members => keys.mapM (only? · members)
  | .inOrder items =>
    if items.length ≤ keys.length then
      some (items.map some ++ List.replicate (keys.length - items.length) none)
    else none

end Record

end ScriptOutline
