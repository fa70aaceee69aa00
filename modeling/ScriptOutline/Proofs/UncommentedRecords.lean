/-
**The records of a text without its comments.**

Bodies, variables and classes are read as if comments were spaces, and so are declarations unless a
comment hides what follows their parameters.  Where no comment does, a text and the text without its
comments have the same records, but for the documentation that was taken from the comments.

Main definitions:

* `Routine.undocumented` — a record without its documentation;
* `commentedText` — a text with comments wherever they do no harm;
* `hiddenBrace` — a function whose brace a comment hides.

Main results:

* `findVariables_uncommented`, `classBlocks_uncommented` — variables and classes;
* `recordOf_uncommented` — the record of a declaration;
* `uncommentedText_records` — **the records of a text without its comments**.
-/

import ScriptOutline.Proofs.RecordOrder
import ScriptOutline.Proofs.UncommentedDeclarations

set_option relaxedAutoImplicit false
set_option autoImplicit false

namespace ScriptOutline

/-! ### Variables and classes -/

theorem bodyText_uncommented (body : Span) (excluded : List Span) (n : Nat) (l : Line) :
    bodyText body excluded n l.uncommented = bodyText body excluded n l := by
  simp only [bodyText, Line.maskedText_uncommented]

/-- The variables of a body are found as if comments were spaces. -/
theorem findVariables_uncommented (s : Source) (body : Span) (excluded : List Span)
    (parameters : List Parameter) :
    findVariables s.uncommented body excluded parameters =
      findVariables s body excluded parameters := by
  have hlines : bodyLines s.uncommented body excluded = bodyLines s body excluded := by
    simp only [bodyLines, Source.uncommented, List.zipIdx_map, ← List.map_drop, ← List.map_take,
      List.map_map]
    congr 2
    funext x
    obtain ⟨l, n⟩ := x
    simp only [Function.comp_apply, Prod.map, bodyText_uncommented, id]
  rw [findVariables, hlines]
  rfl

theorem classBlock?_uncommented (s : Source) (n : Nat) (l : Line) :
    classBlock? s.uncommented n l.uncommented = classBlock? s n l := by
  simp only [classBlock?, Line.firstCode?_uncommented, Line.codeText_uncommented,
    Line.uncommented_length, nextBrace?_uncommented, Source.matchingBrace?_uncommented,
    Source.endPosition_uncommented]

/-- Classes are found as if comments were spaces. -/
theorem classBlocks_uncommented (s : Source) : classBlocks s.uncommented = classBlocks s := by
  simp only [classBlocks, Source.uncommented, List.zipIdx_map, List.filterMap_map]
  congr 1
  funext x
  obtain ⟨l, n⟩ := x
  exact classBlock?_uncommented s n l

/-! ### Records -/

/-- A record without its documentation. -/
def Routine.undocumented (r : Routine) : Routine :=
  { r with documentation := none }

namespace Declaration

theorem span_uncommented (s : Source) (d : Declaration) : d.span s.uncommented = d.span s := by
  simp only [span, stop, Source.endPosition_uncommented]

theorem bodySpan_uncommented (s : Source) (d : Declaration) :
    d.bodySpan s.uncommented = d.bodySpan s := by
  simp only [bodySpan, Source.endPosition_uncommented]

end Declaration

/-- A declaration has the same record in both texts, but for its documentation. -/
theorem recordOf_uncommented {s : Source} (h : declarations s.uncommented = declarations s)
    (version : Int32) (d : Declaration) :
    (recordOf s.uncommented version d).undocumented = (recordOf s version d).undocumented := by
  have hspans : declaredSpans s.uncommented = declaredSpans s := by
    simp only [declaredSpans, h, Declaration.span_uncommented]
  simp only [recordOf, routineOf, Routine.undocumented, hspans, classBlocks_uncommented,
    nestedSpans, findVariables_uncommented, Declaration.span_uncommented,
    Declaration.bodySpan_uncommented]

/-- Where the declarations are the same, the records are the same but for their documentation. -/
theorem assemble_uncommented {s : Source} (h : declarations s.uncommented = declarations s)
    (version : Int32) :
    (assemble s.uncommented version).map Routine.undocumented =
      (assemble s version).map Routine.undocumented := by
  rw [assemble_eq, assemble_eq, h, List.map_map, List.map_map]
  exact List.map_congr_left fun d _ => recordOf_uncommented h version d

/-- Where every line declares the same, the declarations are the same. -/
theorem declarations_uncommented {s : Source}
    (h : ∀ n, n < s.lineCount → declaration? s.uncommented n = declaration? s n) :
    declarations s.uncommented = declarations s := by
  have hfrom (n skip : Nat) (lines : List Line) (hn : n + lines.length ≤ s.lineCount) :
      declarationsFrom s.uncommented n skip (lines.map Line.uncommented) =
        declarationsFrom s n skip lines := by
    induction lines generalizing n skip with
    | nil => rfl
    | cons l rest ih =>
        rw [List.length_cons] at hn
        have hrest (skip : Nat) := ih (n + 1) skip (by omega)
        simp only [List.map_cons, declarationsFrom, h n (by omega), hrest]
  exact hfrom 0 0 s.lines (by simp [Source.lineCount])

/--
Without its comments a text declares the same on a line exactly if no comment hides what follows the
parameters there, or if there is no declaration in either text.  Where this holds of every line, the
records are the same but for their documentation.
-/
theorem uncommentedText_records (text : List Char) (h : (Source.scan text).SemicolonsApart) :
    (∀ n, declaration? (Source.scan (uncommentedText text)) n =
        declaration? (Source.scan text) n ↔
      ((Source.scan text).hidesTail n = true →
        declaration? (Source.scan text) n = none ∧
          declaration? (Source.scan (uncommentedText text)) n = none)) ∧
    ((∀ n, n < (Source.scan text).lineCount → (Source.scan text).hidesTail n = true →
        declaration? (Source.scan text) n = none ∧
          declaration? (Source.scan (uncommentedText text)) n = none) →
      ∀ version, (routinesOf (uncommentedText text) version).map Routine.undocumented =
        (routinesOf text version).map Routine.undocumented) := by
  have hs := Source.hasNoBreaks_scan text
  simp only [routinesOf, Source.scan_uncommentedText h]
  constructor
  · exact declaration?_uncommented_iff hs
  · intro hnone version
    apply assemble_uncommented
    apply declarations_uncommented
    intro n hn
    exact (declaration?_uncommented_iff hs n).2 (hnone n hn)

/-- A text with comments before a name, among parameters, in bodies and before line breaks. -/
def commentedText : List Char :=
  ("/* a */ F(x /* b */, ; c\n y) -> T \x7b ; d\n  v := 1 /* e\n f */ + 2\n\x7d\n" ++
    "G() ; g\n\x7b\n\x7d\nH() => 1 /* h */").toList

/-- Its three functions are found without the comments. -/
theorem uncommentedText_records_commentedText :
    (routinesOf commentedText 0).map (·.name) = ["F", "G", "H"] ∧
      (routinesOf (uncommentedText commentedText) 0).map Routine.undocumented =
        (routinesOf commentedText 0).map Routine.undocumented := by
  have hapart : (Source.scan commentedText).SemicolonsApart := by decide +kernel
  have hshown : ∀ n, n < (Source.scan commentedText).lineCount →
      (Source.scan commentedText).hidesTail n = false := by decide +kernel
  constructor
  · rewrite [routinesOf, assemble_eq]
    decide +kernel
  · apply (uncommentedText_records commentedText hapart).2
    intro n hn hhides
    rw [hshown n hn] at hhides
    exact Bool.noConfusion hhides

/-- A function whose opening brace stands behind a comment. -/
def hiddenBrace : List Char :=
  "A() /* c */ \x7b\n\x7d".toList

/-- The function is no record of its text, but it is one without the comment. -/
theorem uncommentedText_records_hiddenBrace :
    (Source.scan hiddenBrace).SemicolonsApart ∧ routinesOf hiddenBrace 0 = [] ∧
      (routinesOf (uncommentedText hiddenBrace) 0).map (·.name) = ["A"] := by
  simp only [routinesOf, assemble_eq]
  decide +kernel

end ScriptOutline
