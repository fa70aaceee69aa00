/-
**JSON values and their printed form.**

Reports for other programs are written as JSON: two blanks of indentation for each level, one
member or item per line, a blank after the colon, and `[]` or `\x7b\x7d` for a container with
nothing in it.  Members keep the order they are given in.

Main definitions:

* `Json` — a value;
* `Json.escapedChar`, `Json.quoted` — strings between quotation marks;
* `Json.render` — a value as text.

Main results:

* `Json.items_nil`, `Json.members_nil` — nothing is printed for no items.
-/

set_option relaxedAutoImplicit false
set_option autoImplicit false

namespace ScriptOutline

/-- A JSON value. -/
inductive Json where
  | null
  | bool (b : Bool)
  /-- A number written without a fraction or an exponent. -/
  | number (n : Int)
  /-- Any other number, the way it is written. -/
  | decimal (text : String)
  | string (s : String)
  | array (items : List Json)
  | object (members : List (String × Json))
  deriving Inhabited, Repr

namespace Json

/-- The four hexadecimal digits of a code unit. -/
def hexUnit (n : Nat) : List Char :=
  [Nat.digitChar (n / 4096 % 16), Nat.digitChar (n / 256 % 16), Nat.digitChar (n / 16 % 16),
    Nat.digitChar (n % 16)]

/-- How a character is written inside of a string. -/
def escapedChar (c : Char) : List Char :=
  if c = '"' then ['\\', '"']
  else if c = '\\' then ['\\', '\\']
  else if c = '\x08' then ['\\', 'b']
  else if c = '\x0c' then ['\\', 'f']
  else if c = '\n' then ['\\', 'n']
  else if c = '\r' then ['\\', 'r']
  else if c = '\t' then ['\\', 't']
  else if c.toNat < 0x20 then '\\' :: 'u' :: hexUnit c.toNat
  else [c]

/-- A string between quotation marks. -/
def quoted (s : String) : List Char :=
  '"' :: s.toList.flatMap escapedChar ++ ['"']

/-- A line break and the indentation of a level. -/
def newline (level : Nat) : List Char :=
  '\n' :: List.replicate (2 * level) ' '

mutual

/-- A value as text, where `level` is the indentation of the line it starts on. -/
def write (level : Nat) : Json → List Char
  | .null => "null".toList
  | .bool b => if b then "true".toList else "false".toList
  | .number n => (toString n).toList
  | .decimal text => text.toList
  | .string s => quoted s
  | .array [] => ['[', ']']
  | .array (item :: items) =>
    '[' :: newline (level + 1) ++ write (level + 1) item ++ writeItems (level + 1) items ++
      newline level ++ [']']
  | .object [] => ['{', '}']
  | .object ((key, value) :: members) =>
    '{' :: newline (level + 1) ++ quoted key ++ [':', ' '] ++ write (level + 1) value ++
      writeMembers (level + 1) members ++ newline level ++ ['}']

/-- Items that follow another one, each on a line of its own. -/
def writeItems (level : Nat) : List Json → List Char
  | [] => []
  | item :: items => ',' :: newline level ++ write level item ++ writeItems level items

/-- Members that follow another one, each on a line of its own. -/
def writeMembers (level : Nat) : List (String × Json) → List Char
  | [] => []
  | (key, value) :: members =>
    ',' :: newline level ++ quoted key ++ [':', ' '] ++ write level value ++
      writeMembers level members

end

@[simp] theorem items_nil (level : Nat) : writeItems level [] = [] := by
  simp [writeItems]

@[simp] theorem members_nil (level : Nat) : writeMembers level [] = [] := by
  simp [writeMembers]

/-- A value as text. -/
def render (v : Json) : String :=
  String.ofList (write 0 v)

end Json

end ScriptOutline
