/-
**Reading declarations.**

A line declares a function if its first code is a header whose name is not reserved, the parentheses
close, and a body follows.  Calls, conditions and other statements that look like a header lack one
of these.

Main definitions:

* `declaration?` — the declaration that starts on a line;
* `declarations` — those of a whole text, where a header is never read twice.

Main results:

* `declaration?_start` — a declaration starts at the first code of its line.
-/

import ScriptOutline.Declaration.Header
import ScriptOutline.Declaration.Tail

set_option relaxedAutoImplicit false
set_option autoImplicit false

namespace ScriptOutline

/-- The declaration that starts on a line. -/
def declaration? (s : Source) (n : Nat) : Option Declaration := do
  let line ← s.line? n
  let first ← line.firstCode?
  let header ← Header.read? (line.codeText.drop first)
  if isKeyword header.name then none
  else
    let (cells, closing) ← parameterCells? s ⟨n, line.length - header.rest.length - 1⟩
    let tail ← tail? s closing
    return {
      name := header.name
      start := ⟨n, first⟩
      isStatic := header.isStatic
      parameterList := readParameters cells
      returnType := tail.returnType
      body := tail.body
      headerLine := tail.headerLine }

/-- The declarations on the lines `n`, `n + 1`, …, of which `skip` are part of a header. -/
def declarationsFrom (s : Source) (n skip : Nat) : List Line → List Declaration
  | [] => []
  | _ :: rest =>
    if 0 < skip then declarationsFrom s (n + 1) (skip - 1) rest
    else
      match declaration? s n with
      | some d => d :: declarationsFrom s (n + 1) (d.headerLine - n) rest
      | none => declarationsFrom s (n + 1) 0 rest

/-- The declarations of a text, in the order of their lines. -/
def declarations (s : Source) : List Declaration :=
  declarationsFrom s 0 0 s.lines

/-- A declaration starts at the first code of its line. -/
theorem declaration?_start {s : Source} {n : Nat} {d : Declaration}
    (h : declaration? s n = some d) :
    d.start.line = n ∧ (s.line? n).bind Line.firstCode? = some d.start.column := by
  simp only [declaration?, Option.bind_eq_bind, Option.bind_eq_some_iff] at h
  obtain ⟨line, hline, first, hfirst, header, -, h⟩ := h
  split at h
  · simp at h
  · simp only [Option.bind_eq_some_iff] at h
    obtain ⟨⟨cells, closing⟩, -, tail, -, h⟩ := h
    simp only [Option.pure_def, Option.some.injEq] at h
    subst h
    simp [hline, hfirst]

end ScriptOutline
