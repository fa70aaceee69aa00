/-
**Scalars of YAML texts.**

A scalar stands without quotes, or between single or double quotes.  It can go on over several
lines: blanks around line breaks are dropped.  A line feed is a space if no other line break follows
it, and is dropped otherwise; every other line break stands for itself.

Main definitions:

* `Yaml.Gap` — blanks and line breaks inside of a scalar;
* `Yaml.Found` — a value with the place after it;
* `Yaml.plainFrom`, `Yaml.quotedFrom` — scalars without and with quotes;
* `Yaml.scalar?` — the scalar that a text starts with.
-/

import ScriptOutline.Json.Token
import ScriptOutline.Yaml
import ScriptOutline.Yaml.Cursor

set_option relaxedAutoImplicit false
set_option autoImplicit false

namespace ScriptOutline.Yaml

/-! ### Gaps -/

/-- Blanks and line breaks inside of a scalar; of both, what is kept is kept backwards. -/
inductive Gap where
  /-- Blanks on one line. -/
  | blanks (cs : List Char)
  /-- A line break, and others after it. -/
  | breaks (first : Char) (others : List Char)
  /-- An escaped line break, and others after it. -/
  | joined (others : List Char)
  deriving DecidableEq, Repr

namespace Gap

/-- No gap. -/
def none : Gap :=
  .blanks []

/-- A gap with a blank more. -/
def blank (c : Char) : Gap → Gap
  | .blanks cs => .blanks (c :: cs)
  | gap => gap

/-- A gap with a line break more. -/
def lineBreak (c : Char) : Gap → Gap
  | .blanks _ => .breaks c []
  | .breaks first others => .breaks first (c :: others)
  | .joined others => .joined (c :: others)

/-- Whether a gap has a line break. -/
def isBroken : Gap → Bool
  | .blanks _ => false
  | _ => true

/-- What a gap stands for, backwards. -/
def text : Gap → List Char
  | .blanks cs => cs
  | .breaks '\n' [] => [' ']
  | .breaks '\n' others => others
  | .breaks first others => others ++ [first]
  | .joined others => others

end Gap

/-- A value with the place after it. -/
structure Found where
  value : Yaml
  after : Cursor

/-! ### Scalars without quotes -/

/-- Whether a character has a meaning of its own inside of brackets. -/
def isFlowMark (c : Char) : Bool :=
  c = ',' || c = '[' || c = ']' || c = '{' || c = '}'

/-- Whether a scalar without quotes may start with a character and what follows it. -/
def startsPlain (flow : Bool) (c : Char) (rest : List Char) : Bool :=
  if c = '-' then !startsBlank rest
  else if c = '?' || c = ':' then !flow && !startsBlank rest
  else !(isFlowMark c || startsBlank [c] || "#&*!|>'\"%@\x60".toList.contains c)

/--
The scalar without quotes that goes on, outside of brackets, on lines that start at the column `low`
or behind it.  Of what was read the text is kept backwards, with the gap after it.
-/
def plainFrom (flow : Bool) (low : Nat) (text : List Char) (gap : Gap) (line column : Nat) :
    List Char → Option Found
  | [] => some ⟨.plain (String.ofList text.reverse), ⟨[], line, column, gap.isBroken⟩⟩
  | c :: rest =>
    let here : Cursor := ⟨c :: rest, line, column, gap.isBroken⟩
    let stop : Found := ⟨.plain (String.ofList text.reverse), here⟩
    if isBreak c then plainFrom flow low text (gap.lineBreak c) (line + 1) 0 rest
    else if c = ' ' || c = '\t' then
      if c = '\t' && gap.isBroken && column < low then none
      else plainFrom flow low text (gap.blank c) line (column + 1) rest
    else if gap.isBroken && ((!flow && column < low) || here.atMark) then some stop
    else if c = '#' && gap ≠ .none then some stop
    else if c = ':' && startsBlank rest then some stop
    else if flow && c = ':' && rest.head?.any (fun d => isFlowMark d || d = '?') then none
    else if flow && isFlowMark c then some stop
    else plainFrom flow low (c :: (gap.text ++ text)) .none line (column + 1) rest

/-! ### Scalars with quotes -/

/-- What a reader is inside of between quotes. -/
inductive QuoteMode where
  /-- Text, after a gap. -/
  | text (gap : Gap)
  /-- After a backslash, or after the first of two single quotes. -/
  | escape
  /-- Inside the code of a character: `owed + 1` digits are missing. -/
  | code (owed value : Nat)
  deriving DecidableEq, Repr

/-- The character that stands for itself, or for another one, after a backslash. -/
def escaped? (c : Char) : Option Char :=
  if c = '0' then some '\x00'
  else if c = 'a' then some '\x07'
  else if c = 'b' then some '\x08'
  else if c = 't' || c = '\t' then some '\t'
  else if c = 'n' then some '\n'
  else if c = 'v' then some '\x0b'
  else if c = 'f' then some '\x0c'
  else if c = 'r' then some '\r'
  else if c = 'e' then some '\x1b'
  else if c = ' ' || c = '"' || c = '/' || c = '\\' then some c
  else if c = 'N' then some '\u0085'
  else if c = '_' then some '\u00a0'
  else if c = 'L' then some '\u2028'
  else if c = 'P' then some '\u2029'
  else none

/-- The number of digits, less one, of the code that a letter announces after a backslash. -/
def codeLength? (c : Char) : Option Nat :=
  if c = 'x' then some 1
  else if c = 'u' then some 3
  else if c = 'U' then some 7
  else none

/-- The scalar up to the quote that ends it.  Of what was read the text is kept backwards. -/
def quotedFrom (double : Bool) (text : List Char) (mode : QuoteMode) (line column : Nat) :
    List Char → Option Found
  | [] => none
  | c :: rest =>
    match mode with
    | .escape =>
      if !double then quotedFrom double (c :: text) (.text .none) line (column + 1) rest
      else if isBreak c then quotedFrom double text (.text (.joined [])) (line + 1) 0 rest
      else
        match escaped? c, codeLength? c with
        | some e, _ => quotedFrom double (e :: text) (.text .none) line (column + 1) rest
        | none, some owed => quotedFrom double text (.code owed 0) line (column + 1) rest
        | none, none => none
    | .code owed value =>
      match Json.hexValue? c with
      | none => none
      | some digit =>
        let value := value * 16 + digit
        match owed with
        | owed + 1 => quotedFrom double text (.code owed value) line (column + 1) rest
        | 0 =>
          if value.isValidChar then
            quotedFrom double (Char.ofNat value :: text) (.text .none) line (column + 1) rest
          else none
    | .text gap =>
      if isBreak c then quotedFrom double text (.text (gap.lineBreak c)) (line + 1) 0 rest
      else if c = ' ' || c = '\t' then
        quotedFrom double text (.text (gap.blank c)) line (column + 1) rest
      else if column = 0 && startsMark (c :: rest) then none
      else
        let text := gap.text ++ text
        if double && c = '\\' then quotedFrom double text .escape line (column + 1) rest
        else if c ≠ (if double then '"' else '\'') then
          quotedFrom double (c :: text) (.text .none) line (column + 1) rest
        else if !double && rest.head? = some '\'' then
          quotedFrom double text .escape line (column + 1) rest
        else some ⟨.quoted (String.ofList text.reverse), ⟨rest, line, column + 1, false⟩⟩

/-- The scalar that a text starts with. -/
def scalar? (flow : Bool) (low : Nat) (k : Cursor) : Option Found :=
  match k.rest with
  | [] => none
  | c :: rest =>
    if c = '"' then quotedFrom true [] (.text .none) k.line (k.column + 1) rest
    else if c = '\'' then quotedFrom false [] (.text .none) k.line (k.column + 1) rest
    else if startsPlain flow c rest then plainFrom flow low [] .none k.line k.column (c :: rest)
    else none

end ScriptOutline.Yaml
