/-
**Reading patterns for paths.**

`?` stands for one byte and `*` for any bytes.  Two stars stand for any number of folders where they
fill the space between two slashes or an end of the pattern, and for any bytes otherwise.  Brackets
hold a class, braces hold branches between commas, and a backslash makes the next character literal.
A pattern is read one character at a time.

Main definitions:

* `GlobError` — what can be wrong with a pattern;
* `Glob.ReadState` — the places read so far, and what the reader is inside of;
* `Glob.readStep`, `Glob.readEnd` — one character, and the end of a pattern;
* `Glob.ofText` — the pattern that a text stands for.
-/

import ScriptOutline.Glob

set_option relaxedAutoImplicit false
set_option autoImplicit false

namespace ScriptOutline

/-- What can be wrong with a pattern. -/
inductive GlobError where
  | unclosedClass
  | invalidRange (first last : Char)
  | unopenedBranches
  | unclosedBranches
  | danglingEscape
  deriving DecidableEq, Repr

/-- What is said of a pattern with something wrong. -/
def GlobError.message (pattern : String) (e : GlobError) : String :=
  "error parsing glob '" ++ pattern ++ "': " ++
    match e with
    | .unclosedClass => "unclosed character class; missing ']'"
    | .invalidRange first last =>
      "invalid range; '" ++ first.toString ++ "' > '" ++ last.toString ++ "'"
    | .unopenedBranches =>
      "unopened alternate group; missing '\x7b' (maybe escape '\x7d' with '[\x7d]'?)"
    | .unclosedBranches =>
      "unclosed alternate group; missing '\x7d' (maybe escape '\x7b' with '[\x7b]'?)"
    | .danglingEscape => "dangling '\\'"

namespace Glob

/-! ### States -/

/-- A class that is not closed yet: its ranges but the last one, and that one. -/
structure OpenClass where
  negated : Bool
  ranges : List (Char × Char)
  last : Char × Char
  /-- Whether a dash waits for the end of the last range. -/
  dash : Bool
  deriving DecidableEq, Repr

/-- What the reader is inside of. -/
inductive ReadMode where
  | plain
  /-- After a backslash. -/
  | escape
  /-- After one star, or two. -/
  | star
  | stars
  /-- After the bracket that opens a class, and after its negation. -/
  | classStart
  | classFirst (negated : Bool)
  | inClass (c : OpenClass)
  deriving DecidableEq, Repr

/-- Braces that are not closed yet: what stands before them, and their finished branches. -/
structure OpenBranches where
  before : List Token
  finished : List (List Token)

/-- The places read so far.  Places and branches are kept backwards. -/
structure ReadState where
  mode : ReadMode
  /-- The character before the one that is read, or before the stars that are. -/
  before : Option Char
  /-- The places of the branch that is read. -/
  tokens : List Token
  /-- The braces around it, the innermost first. -/
  groups : List OpenBranches

namespace ReadState

/-- The state before the first character. -/
def start : ReadState :=
  ⟨.plain, none, [], []⟩

/-- A state with one place more. -/
def push (s : ReadState) (token : Token) : ReadState :=
  { s with tokens := token :: s.tokens }

/-- A state inside of something. -/
def within (s : ReadState) (mode : ReadMode) : ReadState :=
  { s with mode }

/-- A state that goes on after a character. -/
def after (s : ReadState) (c : Char) : ReadState :=
  { s with mode := .plain, before := some c }

end ReadState

/-! ### Stars -/

/-- Whether two stars may stand for folders: they follow a slash, or what opens a branch. -/
def followBorder (s : ReadState) : Bool :=
  s.before = some '/' ||
    (!s.groups.isEmpty && (s.before = some ',' || s.before = some '{'))

/-- Whether a pattern, or the branch that is read, ends before a character. -/
def endsBefore (s : ReadState) (next : Option Char) : Bool :=
  match next with
  | none => true
  | some c => !s.groups.isEmpty && (c = ',' || c = '}')

/-- A state in which the last place is replaced by folders, unless it stands for folders already. -/
def replaceLast (s : ReadState) (folders : Token) : ReadState :=
  match s.tokens with
  | .leadingFolders :: _ => s
  | .trailingFolders :: _ => s
  | _ :: rest => { s with tokens := folders :: rest }
  | [] => s.push folders

/-- The state after two stars, and whether the slash after them belongs to them. -/
def afterStars (s : ReadState) (next : Option Char) : ReadState × Bool :=
  let bytes := ((s.push .anyBytes).push .anyBytes).after '*'
  if s.tokens.isEmpty then
    match next with
    | none => ((s.push .leadingFolders).after '*', false)
    | some c => if c = '/' then ((s.push .leadingFolders).after '/', true) else (bytes, false)
  else if !followBorder s then (bytes, false)
  else if endsBefore s next then ((replaceLast s .trailingFolders).after '*', false)
  else if next = some '/' then ((replaceLast s .innerFolders).after '/', true)
  else (bytes, false)

/-! ### Classes -/

/-- The place that a class stands for; a dash at its end is one of its characters. -/
def OpenClass.token (c : OpenClass) : Token :=
  let ranges := c.last :: c.ranges
  .oneOf c.negated (if c.dash then ('-', '-') :: ranges else ranges).reverse

/-- A class with one character more, or nothing where it is closed. -/
def OpenClass.step (k : OpenClass) (c : Char) : Except GlobError (Option OpenClass) :=
  if c = ']' then .ok none
  else if k.dash then
    if c < k.last.1 then .error (.invalidRange k.last.1 c)
    else .ok (some { k with last := (k.last.1, c), dash := false })
  else if c = '-' then .ok (some { k with dash := true })
  else .ok (some { k with ranges := k.last :: k.ranges, last := (c, c) })

/-! ### Reading -/

/-- One character outside of everything but braces. -/
def plainStep (s : ReadState) (c : Char) : Except GlobError ReadState :=
  if c = '?' then .ok ((s.push .anyByte).after c)
  else if c = '*' then .ok (s.within .star)
  else if c = '[' then .ok (s.within .classStart)
  else if c = '\\' then .ok (s.within .escape)
  else if c = '{' then
    .ok { mode := .plain, before := some c, tokens := [], groups := ⟨s.tokens, []⟩ :: s.groups }
  else if c = '}' then
    match s.groups with
    | [] => .error .unopenedBranches
    | group :: outer =>
      let branches := (s.tokens.reverse :: group.finished).reverse
      .ok ⟨.plain, some c, .choice branches :: group.before, outer⟩
  else if c = ',' then
    match s.groups with
    | [] => .ok ((s.push (.literal c)).after c)
    | group :: outer =>
      let group := { group with finished := s.tokens.reverse :: group.finished }
      .ok ⟨.plain, some c, [], group :: outer⟩
  else .ok ((s.push (.literal c)).after c)

/-- The first character of a class, whatever it is. -/
def firstOfClass (s : ReadState) (negated : Bool) (c : Char) : ReadState :=
  s.within (.inClass ⟨negated, [], (c, c), false⟩)

/-- One character. -/
def readStep (s : ReadState) (c : Char) : Except GlobError ReadState :=
  match s.mode with
  | .plain => plainStep s c
  | .escape => .ok ((s.push (.literal c)).after c)
  | .star =>
    if c = '*' then .ok (s.within .stars) else plainStep ((s.push .anyBytes).after '*') c
  | .stars =>
    let (next, taken) := afterStars s (some c)
    if taken then .ok next else plainStep next c
  | .classStart =>
    if c = '!' || c = '^' then .ok (s.within (.classFirst true)) else .ok (firstOfClass s false c)
  | .classFirst negated => .ok (firstOfClass s negated c)
  | .inClass k => do
    match ← k.step c with
    | some next => return s.within (.inClass next)
    | none => return (s.push k.token).after c

/-- The places of a pattern that ends in a state. -/
def readEnd (s : ReadState) : Except GlobError (List Token) :=
  let finish (s : ReadState) : Except GlobError (List Token) :=
    if s.groups.isEmpty then .ok s.tokens.reverse else .error .unclosedBranches
  match s.mode with
  | .plain => finish s
  | .escape => .error .danglingEscape
  | .star => finish (s.push .anyBytes)
  | .stars => finish (afterStars s none).1
  | .classStart | .classFirst _ | .inClass _ => .error .unclosedClass

/-- The pattern that a text stands for. -/
def ofText (pattern : String) : Except GlobError Glob := do
  let s ← pattern.toList.foldlM readStep ReadState.start
  return ⟨← readEnd s⟩

end Glob

end ScriptOutline
