/-
**Assembling the routines of a text.**

Every declaration becomes a routine.  Its body is searched for variables without the declarations
that are nested in it, and it belongs to the class around it unless another declaration stands
between the two.

Main definitions:

* `routineOf` — the routine of one declaration;
* `assemble` — the routines of a scanned text, in the order of their starts;
* `routinesOf` — the routines of a text.
-/

import ScriptOutline.Declaration.Reader
import ScriptOutline.Routine
import ScriptOutline.Routine.ClassBlock
import ScriptOutline.Routine.Documentation
import ScriptOutline.Variable.Search

set_option relaxedAutoImplicit false
set_option autoImplicit false

namespace ScriptOutline

/-- How the body of a declaration is written. -/
def Body.kind : Body → BodyKind
  | .block .. => .block
  | .arrow .. => .arrow

/-- The spans of other declarations that lie in the body of one. -/
def nestedSpans (s : Source) (spans : List Span) (d : Declaration) : List Span :=
  spans.filter fun other => other ≠ d.span s && (d.bodySpan s).encloses other

/--
The routine of a declaration, given the spans of all declarations and all classes of its text.
-/
def routineOf (s : Source) (version : Int32) (spans : List Span) (classes : List ClassBlock)
    (d : Declaration) : Routine :=
  { name := d.name
    parameters := d.parameters
    vars := findVariables s (d.bodySpan s) (nestedSpans s spans d) d.parameters
    minArgs := requiredCount d.parameters
    maxArgs := argLimit d.parameters
    returnType := d.returnType
    variadic := argLimit d.parameters = .variadic
    span := d.span s
    documentation := documentationAbove? s d.start.line
    version
    bodyKind := d.body.kind
    className := owningClass? (d.span s) spans classes
    isStatic := d.isStatic
    parseError := d.error?.map ParameterError.message }

/-- The routines of a scanned text, in the order of their starts. -/
def assemble (s : Source) (version : Int32) : List Routine :=
  let found := declarations s
  let spans := found.map fun d => d.span s
  let classes := classBlocks s
  (found.map (routineOf s version spans classes)).mergeSort fun a b =>
    decide (a.span.start ≤ b.span.start)

/-- The routines of a text, in the order of their starts. -/
def routinesOf (text : List Char) (version : Int32) : List Routine :=
  assemble (Source.scan text) version

end ScriptOutline
