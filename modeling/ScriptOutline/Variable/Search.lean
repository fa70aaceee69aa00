/-
**The variables of a body.**

A body is looked through line by line.  What lies outside of its span, or inside of the declarations
that are nested in it, is blanked out first, and so are comments and the insides of literals.  Names
are compared without regard to case.  Parameters come before declared variables, and these before
all others; of the same name the first mention counts.

Main definitions:

* `BodyLine`, `bodyLines` — the lines of a body that are not blank;
* `mentionedVariables` — every mention, in the order in which mentions count;
* `firstMentions` — the mentions of names that were not mentioned before;
* `findVariables` — the variables of a body.
-/

import ScriptOutline.Parameter
import ScriptOutline.Source
import ScriptOutline.Variable.Statement

set_option relaxedAutoImplicit false
set_option autoImplicit false

namespace ScriptOutline

/-- A line of a body: its number, and what can be seen of it. -/
structure BodyLine where
  number : Nat
  text : List Char
  deriving DecidableEq, Repr

/-- Whether a position belongs to a body without the spans that are cut out of it. -/
def belongsTo (body : Span) (excluded : List Span) (p : Position) : Bool :=
  body.contains p && !excluded.any (·.contains p)

/-- What can be seen of a line of a body. -/
def bodyText (body : Span) (excluded : List Span) (number : Nat) (l : Line) : List Char :=
  l.maskedText.zipIdx.map fun (c, column) =>
    if belongsTo body excluded ⟨number, column⟩ then c else ' '

/-- The lines of a body that are not blank. -/
def bodyLines (s : Source) (body : Span) (excluded : List Span) : List BodyLine :=
  let lines := (s.lines.zipIdx.drop body.start.line).take (body.stop.line + 1 - body.start.line)
  (lines.map fun (l, number) => ⟨number, bodyText body excluded number l⟩).filter fun l =>
    !(trim l.text).isEmpty

namespace BodyLine

/-- The variable that a mention on a line stands for. -/
def toVariable (l : BodyLine) (scope : Scope) (m : Mention) : Variable :=
  ⟨String.ofList m.name, scope, m.hasInitializer, ⟨l.number, m.column⟩, m.hint.map Hint.name⟩

/-- The variables that a declaration line mentions. -/
def declared (l : BodyLine) : List Variable :=
  match declaredOn? l.text with
  | some (scope, mentions) => mentions.map (l.toVariable scope)
  | none => []

/-- The variables that any other line mentions. -/
def implied (l : BodyLine) : List Variable :=
  match declaredOn? l.text with
  | some _ => []
  | none => (impliedOn l.text).map (l.toVariable .local)

end BodyLine

/-- Every mention of a variable: first those on declaration lines, then all others. -/
def mentionedVariables (lines : List BodyLine) : List Variable :=
  lines.flatMap BodyLine.declared ++ lines.flatMap BodyLine.implied

/--
The variables whose names, in small letters, are not among `taken` and come for the first time.
-/
def firstMentions (taken : List String) : List Variable → List Variable
  | [] => []
  | v :: rest =>
    let key := lowercase v.name
    if taken.contains key then firstMentions taken rest
    else v :: firstMentions (key :: taken) rest

/-- The variables of a body, without the parameters and without what nested declarations hold. -/
def findVariables (s : Source) (body : Span) (excluded : List Span)
    (parameters : List Parameter) : Variables :=
  let taken := parameters.map fun p => lowercase p.name
  Variables.ofList (firstMentions taken (mentionedVariables (bodyLines s body excluded)))

end ScriptOutline
