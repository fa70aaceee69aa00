/-
**Reading JSON values.**

The tokens of a text are read from left to right.  The containers that are not finished yet lie on a
stack, and what may come next depends on the last token and on the innermost of them.

Main definitions:

* `Json.Frame` — a container that is not finished;
* `Json.ReadState` — the stack, and what the reader waits for;
* `Json.readStep?` — one token;
* `Json.parse?` — the value of a text.
-/

import ScriptOutline.Json.Token

set_option relaxedAutoImplicit false
set_option autoImplicit false

namespace ScriptOutline.Json

/-- A container that is not finished.  What it holds is kept backwards. -/
inductive Frame where
  | array (items : List Json)
  | object (members : List (String × Json))
  /-- An object that waits for the value of a key. -/
  | member (members : List (String × Json)) (key : String)

/-- What a reader waits for. -/
inductive Awaiting where
  | value
  /-- A value, or the end of an array with nothing in it. -/
  | firstItem
  /-- A key, or the end of an object with nothing in it. -/
  | firstKey
  | key
  | colon
  /-- A comma, or the end of the innermost container. -/
  | next
  /-- Nothing: the value is complete. -/
  | done (v : Json)

/-- The unfinished containers, the innermost first, and what the reader waits for. -/
structure ReadState where
  stack : List Frame
  awaiting : Awaiting

/-- The state after a whole value. -/
def complete? (stack : List Frame) (v : Json) : Option ReadState :=
  match stack with
  | [] => some ⟨[], .done v⟩
  | .array items :: rest => some ⟨.array (v :: items) :: rest, .next⟩
  | .member members key :: rest => some ⟨.object ((key, v) :: members) :: rest, .next⟩
  | .object _ :: _ => none

/-- The state after the first token of a value. -/
def beginValue? (stack : List Frame) : Token → Option ReadState
  | .value v => complete? stack v
  | .beginArray => some ⟨.array [] :: stack, .firstItem⟩
  | .beginObject => some ⟨.object [] :: stack, .firstKey⟩
  | _ => none

/-- The state after a key. -/
def beginMember? (stack : List Frame) : Token → Option ReadState
  | .value (.string key) =>
    match stack with
    | .object members :: rest => some ⟨.member members key :: rest, .colon⟩
    | _ => none
  | _ => none

/-- The state after the end of the innermost container. -/
def endContainer? (stack : List Frame) : Token → Option ReadState
  | .endArray =>
    match stack with
    | .array items :: rest => complete? rest (.array items.reverse)
    | _ => none
  | .endObject =>
    match stack with
    | .object members :: rest => complete? rest (.object members.reverse)
    | _ => none
  | _ => none

/-- The state after a comma. -/
def afterComma? (stack : List Frame) : Option ReadState :=
  match stack with
  | .array _ :: _ => some ⟨stack, .value⟩
  | .object _ :: _ => some ⟨stack, .key⟩
  | _ => none

/-- One token. -/
def readStep? (state : ReadState) (token : Token) : Option ReadState :=
  match state.awaiting, token with
  | .value, token => beginValue? state.stack token
  | .firstItem, .endArray => endContainer? state.stack .endArray
  | .firstItem, token => beginValue? state.stack token
  | .firstKey, .endObject => endContainer? state.stack .endObject
  | .firstKey, token => beginMember? state.stack token
  | .key, token => beginMember? state.stack token
  | .colon, .colon => some ⟨state.stack, .value⟩
  | .next, .comma => afterComma? state.stack
  | .next, token => endContainer? state.stack token
  | _, _ => none

/-- The value that the tokens complete. -/
def readTokens? (state : ReadState) : List Token → Option Json
  | [] =>
    match state.awaiting with
    | .done v => some v
    | _ => none
  | token :: rest => (readStep? state token).bind (readTokens? · rest)

/-- The value of a text. -/
def parse? (s : String) : Option Json :=
  (tokens? s.toList).bind (readTokens? ⟨[], .value⟩)

end ScriptOutline.Json
