/-
**Routines as JSON values.**

The members of a routine come in a fixed order, and fields without a value are left out.  Reading
undoes writing.

Main definitions:

* `Parameter.toJson`, `Parameter.ofJson?` — parameters;
* `Variable.toJson`, `Variable.ofJson?` — variables;
* `Span.toJson`, `Span.ofJson?` — spans;
* `Routine.toJson`, `Routine.ofJson?` — routines.
-/

import ScriptOutline.Json.Record
import ScriptOutline.Routine

set_option relaxedAutoImplicit false
set_option autoImplicit false

namespace ScriptOutline

open Json (member memberIf count required? optional? asString? asBool? asCount? asVersion? asList?
  asName? asChoice?)

/-! ### Parameters -/

/-- A default value as a JSON value. -/
def DefaultValue.toJson (d : DefaultValue) : Json :=
  .object (member "kind" (.string d.kind.name) ++ member "text" (.string d.text))

/-- The default value that a JSON value stands for. -/
def DefaultValue.ofJson? (v : Json) : Option DefaultValue := do
  match ← v.fields? ["kind", "text"] with
  | [kind, text] =>
    let name ← required? asString? kind
    return ⟨← [DefaultKind.constant, .expression].find? (·.name = name), ← required? asString? text⟩
  | _ => none

namespace Parameter

/-- A parameter as a JSON value. -/
def toJson (p : Parameter) : Json :=
  .object (
    member "name" (.string p.name) ++
    member "is_by_ref" (.bool p.byReference) ++
    member "is_optional" (.bool p.optional) ++
    memberIf "default" DefaultValue.toJson p.defaultValue ++
    memberIf "type_hint" .string p.typeHint ++
    member "is_variadic" (.bool p.variadic) ++
    member "position" (count p.position))

/-- The fields of a parameter. -/
def keys : List String :=
  ["name", "is_by_ref", "is_optional", "default", "type_hint", "is_variadic", "position"]

/-- The parameter that a JSON value stands for. -/
def ofJson? (v : Json) : Option Parameter := do
  match ← v.fields? keys with
  | [name, byReference, optional, defaultValue, typeHint, variadic, position] =>
    return {
      name := ← required? asString? name
      byReference := ← required? asBool? byReference
      optional := ← required? asBool? optional
      defaultValue := ← optional? DefaultValue.ofJson? defaultValue
      typeHint := ← optional? asString? typeHint
      variadic := ← required? asBool? variadic
      position := ← required? asCount? position }
  | _ => none

end Parameter

/-- A limit on arguments as a JSON value. -/
def ArgLimit.toJson : ArgLimit → Json
  | .count n => .object (member "count" (.number n))
  | .variadic => .string "variadic"

/-- The limit on arguments that a JSON value stands for. -/
def ArgLimit.ofJson? : Json → Option ArgLimit
  | .object [("count", n)] => (asCount? n).map .count
  | v => if asName? v = some "variadic" then some .variadic else none

/-! ### Variables -/

namespace Variable

/-- A variable as a JSON value. -/
def toJson (v : Variable) : Json :=
  .object (
    member "name" (.string v.name) ++
    member "scope" (.string v.scope.keyword) ++
    member "has_initializer" (.bool v.hasInitializer) ++
    member "declaration_line" (count v.position.line) ++
    member "declaration_character" (count v.position.column) ++
    memberIf "type_hint" .string v.typeHint)

/-- The fields of a variable. -/
def keys : List String :=
  ["name", "scope", "has_initializer", "declaration_line", "declaration_character", "type_hint"]

/-- The variable that a JSON value stands for. -/
def ofJson? (v : Json) : Option Variable := do
  match ← v.fields? keys with
  | [name, scope, hasInitializer, line, column, typeHint] =>
    return {
      name := ← required? asString? name
      scope := ← required? (asChoice? Scope.keyword [.static, .local, .global]) scope
      hasInitializer := ← required? asBool? hasInitializer
      position := ⟨← required? asCount? line, ← required? asCount? column⟩
      typeHint := ← optional? asString? typeHint }
  | _ => none

end Variable

/-! ### Spans -/

namespace Span

/-- A span as a JSON value. -/
def toJson (s : Span) : Json :=
  .object (
    member "start_line" (count s.start.line) ++
    member "start_character" (count s.start.column) ++
    member "end_line" (count s.stop.line) ++
    member "end_character" (count s.stop.column))

/-- The fields of a span. -/
def keys : List String :=
  ["start_line", "start_character", "end_line", "end_character"]

/-- The span that a JSON value stands for. -/
def ofJson? (v : Json) : Option Span := do
  match ← v.fields? keys with
  | [startLine, startColumn, stopLine, stopColumn] =>
    return ⟨⟨← required? asCount? startLine, ← required? asCount? startColumn⟩,
      ⟨← required? asCount? stopLine, ← required? asCount? stopColumn⟩⟩
  | _ => none

end Span

/-! ### Routines -/

/-- The name of a way to write a body. -/
def BodyKind.name : BodyKind → String
  | .block => "block"
  | .arrow => "arrow"

namespace Routine

/-- A routine as a JSON value. -/
def toJson (r : Routine) : Json :=
  .object (
    member "name" (.string r.name) ++
    member "parameters" (.array (r.parameters.map Parameter.toJson)) ++
    member "static_variables" (.array (r.vars.statics.map Variable.toJson)) ++
    member "local_variables" (.array (r.vars.locals.map Variable.toJson)) ++
    member "global_variables" (.array (r.vars.globals.map Variable.toJson)) ++
    member "min_params" (count r.minArgs) ++
    member "max_params" r.maxArgs.toJson ++
    memberIf "return_type" .string r.returnType ++
    member "is_variadic" (.bool r.variadic) ++
    member "location" r.span.toJson ++
    memberIf "documentation" .string r.documentation ++
    member "version" (.number r.version.toInt) ++
    member "body_kind" (.string r.bodyKind.name) ++
    memberIf "class_name" .string r.className ++
    member "is_static" (.bool r.isStatic) ++
    memberIf "parse_error" .string r.parseError)

/-- The fields of a routine. -/
def keys : List String :=
  ["name", "parameters", "static_variables", "local_variables", "global_variables", "min_params",
   "max_params", "return_type", "is_variadic", "location", "documentation", "version", "body_kind",
   "class_name", "is_static", "parse_error"]

/-- The routine that a JSON value stands for. -/
def ofJson? (v : Json) : Option Routine := do
  match ← v.fields? keys with
  | [name, parameters, statics, locals, globals, minArgs, maxArgs, returnType, variadic, span,
      documentation, version, bodyKind, className, isStatic, parseError] =>
    return {
      name := ← required? asString? name
      parameters := ← required? (asList? Parameter.ofJson?) parameters
      vars :=
        { statics := ← required? (asList? Variable.ofJson?) statics
          locals := ← required? (asList? Variable.ofJson?) locals
          globals := ← required? (asList? Variable.ofJson?) globals }
      minArgs := ← required? asCount? minArgs
      maxArgs := ← required? ArgLimit.ofJson? maxArgs
      returnType := ← optional? asString? returnType
      variadic := ← required? asBool? variadic
      span := ← required? Span.ofJson? span
      documentation := ← optional? asString? documentation
      version := ← required? asVersion? version
      bodyKind := ← required? (asChoice? BodyKind.name [.block, .arrow]) bodyKind
      className := ← optional? asString? className
      isStatic := ← required? asBool? isStatic
      parseError := ← optional? asString? parseError }
  | _ => none

end Routine

end ScriptOutline
