/-
**Reading YAML values.**

Inside of brackets, items are told apart by commas.  Outside of them, blocks are told apart by the
columns they start at: items of a list by dashes in one column, members of a map by keys in one
column.  A list that is the value of a key may have its dashes in the column of the key.  A key is a
scalar, or a list or map in brackets.  A text holds one value, so marks between values are refused.

Main definitions:

* `Yaml.flowNode?` — a value without blocks;
* `Yaml.blockNode?` — a value outside of brackets;
* `Yaml.parse?` — the value of a text.
-/

import ScriptOutline.Yaml.Scalar

set_option relaxedAutoImplicit false
set_option autoImplicit false

namespace ScriptOutline.Yaml

/-! ### Values without blocks -/

mutual

/--
A scalar, or a list or map in brackets.  Scalars inside of brackets go on as in the block around the
brackets.
-/
def flowNode? (fuel : Nat) (flow : Bool) (low : Nat) (k : Cursor) : Option Found :=
  match fuel with
  | 0 => none
  | fuel + 1 =>
    if k.atMark then none
    else
      match k.rest with
      | '[' :: rest => flowItems? fuel low [] (k.past rest)
      | '{' :: rest => flowMembers? fuel low [] (k.past rest)
      | _ => scalar? flow low k

/-- The value of a key inside of brackets, where nothing may be written. -/
def flowValue? (fuel low : Nat) (k : Cursor) : Option Found :=
  match fuel with
  | 0 => none
  | fuel + 1 =>
    let k := k.skip true
    match k.rest with
    | [] => none
    | c :: _ =>
      if c = ',' || c = ']' || c = '}' then some ⟨empty, k⟩ else flowNode? fuel true low k

/--
The items of a list from a place on, after those that were read, which are kept backwards.  A key
with its value is an item, too.
-/
def flowItems? (fuel low : Nat) (items : List Yaml) (k : Cursor) : Option Found :=
  match fuel with
  | 0 => none
  | fuel + 1 =>
    let k := k.skip true
    if k.rest.head? = some ']' then some ⟨.list items.reverse, k.past k.rest.tail⟩
    else do
      let node ← flowNode? fuel true low k
      let item ←
        match Cursor.afterKey? true k node.after with
        | none => pure node
        | some next =>
          let value ← flowValue? fuel low next
          pure ⟨.map [(node.value, value.value)], value.after⟩
      let items := item.value :: items
      let k := item.after.skip true
      match k.rest with
      | ',' :: rest => flowItems? fuel low items (k.past rest)
      | ']' :: rest => some ⟨.list items.reverse, k.past rest⟩
      | _ => none

/--
The members of a map from a place on, after those that were read, which are kept backwards.  A value
without a colon is a key of nothing.
-/
def flowMembers? (fuel low : Nat) (members : List (Yaml × Yaml)) (k : Cursor) : Option Found :=
  match fuel with
  | 0 => none
  | fuel + 1 =>
    let k := k.skip true
    if k.rest.head? = some '}' then some ⟨.map members.reverse, k.past k.rest.tail⟩
    else do
      let key ← flowNode? fuel true low k
      let value ←
        match Cursor.afterKey? true k key.after with
        | none => pure ⟨empty, key.after⟩
        | some next => flowValue? fuel low next
      let members := (key.value, value.value) :: members
      let k := value.after.skip true
      match k.rest with
      | ',' :: rest => flowMembers? fuel low members (k.past rest)
      | '}' :: rest => some ⟨.map members.reverse, k.past rest⟩
      | _ => none

end

/-! ### Values outside of brackets -/

mutual

/--
A value outside of brackets.  It starts at the column `low` or behind it, or, if it is a list, at
`dash` or behind it; otherwise nothing is written.
-/
def blockNode? (fuel low dash : Nat) (k : Cursor) : Option Found :=
  match fuel with
  | 0 => none
  | fuel + 1 =>
    let k := k.skip false
    if k.rest.isEmpty then some ⟨empty, k⟩
    else if startsItem k.rest then
      if !k.fresh then none
      else if k.column < dash then some ⟨empty, k⟩
      else blockItems? fuel k.column (k.column < low) [] k
    else if k.column < low then some ⟨empty, k⟩
    else do
      let node ← flowNode? fuel false low k
      match Cursor.afterKey? false k node.after with
      | none => some node
      | some next => if k.fresh then blockMembers? fuel k.column [] node.value next else none

/--
The items of a list in a column, from a dash on, after those that were read, which are kept
backwards.  A list in the column of a key ends before the next key.
-/
def blockItems? (fuel column : Nat) (shared : Bool) (items : List Yaml) (k : Cursor) :
    Option Found :=
  match fuel with
  | 0 => none
  | fuel + 1 => do
    let item ← blockNode? fuel (column + 1) (column + 1) { k.past k.rest.tail with fresh := true }
    let items := item.value :: items
    let k := item.after.skip false
    if k.rest.isEmpty || k.column < column then some ⟨.list items.reverse, k⟩
    else if k.column ≠ column || !k.fresh then none
    else if startsItem k.rest then blockItems? fuel column shared items k
    else if shared then some ⟨.list items.reverse, k⟩
    else none

/--
The members of a map in a column, from behind the colon after a key on, after those that were read,
which are kept backwards.
-/
def blockMembers? (fuel column : Nat) (members : List (Yaml × Yaml)) (key : Yaml) (k : Cursor) :
    Option Found :=
  match fuel with
  | 0 => none
  | fuel + 1 => do
    let value ← blockNode? fuel (column + 1) column k
    let members := (key, value.value) :: members
    let k := value.after.skip false
    if k.rest.isEmpty || k.column < column then some ⟨.map members.reverse, k⟩
    else if k.column ≠ column || !k.fresh then none
    else
      let key ← flowNode? fuel false (column + 1) k
      blockMembers? fuel column members key.value (← Cursor.afterKey? false k key.after)

end

/--
The value of a text.  Of three calls in a row at least one takes a character, which bounds the
fuel.
-/
def parse? (text : String) : Option Yaml := do
  let cs := unifyBreaks text.toList
  if !cs.all isAllowed then none
  else
    let found ← blockNode? (3 * cs.length + 3) 0 0 (Cursor.start cs)
    if (found.after.skip false).rest.isEmpty then some found.value else none

end ScriptOutline.Yaml
