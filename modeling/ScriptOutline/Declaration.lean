/-
**Declarations of functions.**

A declaration is a header, a list of parameters and a body.  The body is a block in braces or the
expression after an arrow.  A list of parameters that cannot be read leaves the declaration itself
intact.

Main definitions:

* `isKeyword` — the words that look like a call at the start of a line but declare nothing;
* `Body` — where a body lies;
* `Declaration` — one declaration;
* `Declaration.stop`, `Declaration.bodySpan` — where a declaration ends, and what its body spans.
-/

import ScriptOutline.Parameter.Reader
import ScriptOutline.Source
import ScriptOutline.Text.Lowercase

set_option relaxedAutoImplicit false
set_option autoImplicit false

namespace ScriptOutline

/-- The reserved words, in small letters. -/
def keywords : List String :=
  ["and", "break", "case", "catch", "class", "contains", "continue", "else", "finally", "for",
   "global", "goto", "if", "in", "is", "local", "loop", "not", "or", "return", "static", "super",
   "switch", "throw", "try", "until", "while"]

/-- Whether a word is reserved, in any case of the letters A to Z. -/
def isKeyword (word : String) : Bool :=
  keywords.contains (asciiLowercase word)

/-- Where the body of a declaration lies. -/
inductive Body where
  /-- A block from its opening to its closing brace, if it is ever closed. -/
  | block (opening : Position) (closing : Option Position)
  /-- An expression from just past the arrow. -/
  | arrow (start stop : Position)
  deriving DecidableEq, Repr

/-- A declaration of a function or method. -/
structure Declaration where
  name : String
  /-- The first character: that of the word `static`, or of the name. -/
  start : Position
  isStatic : Bool
  parameterList : Except ParameterError (List Parameter)
  returnType : Option String
  body : Body
  /-- The last line of the header: that of the closing parenthesis, or of the opening brace. -/
  headerLine : Nat

namespace Declaration

/-- The parameters; none if their list could not be read. -/
def parameters (d : Declaration) : List Parameter :=
  match d.parameterList with
  | .ok parameters => parameters
  | .error _ => []

/-- Why the list of parameters could not be read. -/
def error? (d : Declaration) : Option ParameterError :=
  match d.parameterList with
  | .ok _ => none
  | .error e => some e

/-- Where a declaration ends: an open block runs to the end of the text. -/
def stop (d : Declaration) (s : Source) : Position :=
  match d.body with
  | .block _ (some closing) => closing.next
  | .block _ none => s.endPosition
  | .arrow _ stop => stop

/-- All of a declaration. -/
def span (d : Declaration) (s : Source) : Span :=
  ⟨d.start, d.stop s⟩

/-- The inside of the body: between the braces, or after the arrow. -/
def bodySpan (d : Declaration) (s : Source) : Span :=
  match d.body with
  | .block opening closing => ⟨opening.next, closing.getD s.endPosition⟩
  | .arrow start stop => ⟨start, stop⟩

end Declaration

end ScriptOutline
