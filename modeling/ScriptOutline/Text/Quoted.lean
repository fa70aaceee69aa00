/-
**Quoted texts.**

Messages show a text between quotation marks with everything escaped that a reader could not see or
could misread: quotation marks, backslashes, line breaks, tabs and the null character by a
backslash and a letter, every other unprintable character by its code point in hexadecimal.

Main definitions:

* `escapedChar` — how one character is written;
* `quoted` — a text between double quotes;
* `quotedPath` — the same for a path, where a single quote is escaped as well.
-/

import ScriptOutline.Text.Printable

set_option relaxedAutoImplicit false
set_option autoImplicit false

namespace ScriptOutline

/-- How a character is written between double quotes. -/
def escapedChar (c : Char) : List Char :=
  if c = '\x00' then ['\\', '0']
  else if c = '\t' then ['\\', 't']
  else if c = '\r' then ['\\', 'r']
  else if c = '\n' then ['\\', 'n']
  else if c = '"' then ['\\', '"']
  else if c = '\\' then ['\\', '\\']
  else if isPrintable c then [c]
  else ['\\', 'u', '\x7b'] ++ Nat.toDigits 16 c.toNat ++ ['\x7d']

/-- A text between double quotes. -/
def quoted (s : String) : String :=
  String.ofList ('"' :: s.toList.flatMap escapedChar ++ ['"'])

/-- A path between double quotes: its single quotes are escaped too. -/
def quotedPath (s : String) : String :=
  String.ofList
    ('"' :: s.toList.flatMap (fun c => if c = '\'' then ['\\', '\''] else escapedChar c) ++ ['"'])

end ScriptOutline
