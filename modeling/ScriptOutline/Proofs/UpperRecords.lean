/-
**The records of a text that stands above other lines.**

More lines below a closed text add declarations and classes, but none of them lies in a body of the
upper text or holds one of its declarations, so that the records of the upper text are what they
were.

Main results:

* `Source.IsAtop.classBlock?_eq`, `Source.IsAtop.classBlocks_eq` — classes of the upper text;
* `Source.IsAtop.documentationAbove?_eq`, `Source.IsAtop.findVariables_eq` — comments and variables;
* `owningClass?_above`, `nestedSpans_above` — spans below do not count;
* `Source.IsAtop.routineOf_eq` — the record of a declaration is what it was.
-/

import Mathlib.Data.List.Basic
import ScriptOutline.Proofs.UpperPart

set_option relaxedAutoImplicit false
set_option autoImplicit false

namespace ScriptOutline

/-! ### Spans that stand below -/

/-- Spans and classes below do not change which class a span belongs to. -/
theorem owningClass?_above {k : Nat} {spans lowerSpans : List Span}
    {classes lowerClasses : List ClassBlock} {span : Span} (hspan : span.IsAbove k) :
    owningClass? span (spans ++ lowerSpans.map (Span.down k))
        (classes ++ lowerClasses.map (ClassBlock.down k)) =
      owningClass? span spans classes := by
  have hlower : (lowerClasses.map (ClassBlock.down k)).filter (fun c => c.span.encloses span) =
      [] := by
    rw [List.filter_eq_nil_iff]
    intro c hc
    obtain ⟨c', -, rfl⟩ := List.mem_map.1 hc
    simp only [ClassBlock.down, Span.encloses_down_above hspan]
    decide
  have hany : ∀ start : Position, (lowerSpans.map (Span.down k)).any (fun other =>
      other ≠ span && other.encloses span && decide (start < other.start)) = false := by
    intro start
    rw [List.any_eq_false]
    intro u hu
    obtain ⟨u', -, rfl⟩ := List.mem_map.1 hu
    simp [Span.encloses_down_above hspan]
  simp only [owningClass?, List.filter_append, hlower, List.append_nil, List.any_append, hany,
    Bool.or_false]

/-- What lies below is not nested in a body. -/
theorem nestedSpans_above {k : Nat} {s t : Source} {d : Declaration}
    (hspan : d.span t = d.span s) (hbody : d.bodySpan t = d.bodySpan s)
    (habove : (d.bodySpan s).IsAbove k) (spans lowerSpans : List Span) :
    nestedSpans t (spans ++ lowerSpans.map (Span.down k)) d = nestedSpans s spans d := by
  have hlower : (lowerSpans.map (Span.down k)).filter
      (fun other => other ≠ d.span s && (d.bodySpan s).encloses other) = [] := by
    rw [List.filter_eq_nil_iff]
    intro u hu
    obtain ⟨u', -, rfl⟩ := List.mem_map.1 hu
    simp [Span.above_encloses_down habove]
  simp only [nestedSpans, hspan, hbody, List.filter_append, hlower, List.append_nil]

namespace Source.IsAtop

variable {below : List Line} {s t : Source} (h : s.IsAtop below t)

include h

/-! ### Classes -/

/-- A class whose brace stands in the upper text ends in it. -/
theorem classStop_eq {p : Position} (hp : ⟨p, ⟨'{', .code⟩⟩ ∈ s.spots) :
    ∃ c : Position, ((t.matchingBrace? p).map Position.next).getD t.endPosition = c.next ∧
      ((s.matchingBrace? p).map Position.next).getD s.endPosition = c.next ∧
        c.line < s.lineCount := by
  obtain ⟨c, hc, hlt⟩ := h.exists_closing hp
  refine ⟨c, ?_, ?_, hlt⟩
  · rw [h.braces p hp, hc]
    rfl
  · rw [hc]
    rfl

/-- A line of the upper text declares the class that it declares alone. -/
theorem classBlock?_eq {n : Nat} {l : Line} (hl : s.line? n = some l) :
    classBlock? t n l = classBlock? s n l ∧
      ∀ c ∈ classBlock? s n l, c.span.IsAbove s.lineCount := by
  have hn : n < s.lineCount := line_lt_of_line? hl
  simp only [classBlock?, Option.bind_eq_bind]
  cases hfirst : l.firstCode? with
  | none => exact ⟨rfl, by simp⟩
  | some first =>
      simp only [Option.bind_some]
      cases hheader : classHeader? (l.codeText.drop first) with
      | none => exact ⟨rfl, by simp⟩
      | some header =>
          obtain ⟨name, brace⟩ := header
          simp only [Option.bind_some]
          cases brace with
          | some length =>
              -- the brace on the line is live code
              obtain ⟨before, rest, htext, hplain, hlength⟩ := classHeader?_spec hheader
              have hbrace := Line.code_of_firstCode? (h.read n l hl) hfirst htext hplain
                (by decide) (by decide)
              rw [Nat.sub_sub, ← hlength] at hbrace
              obtain ⟨stop, ht, hs, hstop⟩ := h.classStop_eq (mem_spots_of_cell hl hbrace)
              simp only [ht, hs, true_and]
              intro found hfound
              rw [← Option.some.inj hfound]
              exact ⟨hn, hstop⟩
          | none =>
              -- the last line declares no class, and what is above it finds a brace above
              have hline : n + 1 < s.lineCount := by
                rcases Nat.lt_or_ge (n + 1) s.lineCount with hlt | hge
                · exact hlt
                · obtain ⟨l', hl', hink⟩ := h.exists_last
                  rw [show s.lineCount - 1 = n by omega, hl, Option.some.injEq] at hl'
                  subst hl'
                  obtain ⟨first', rest, hfirst', -, htext⟩ := Line.firstCode?_brace hink
                  rw [hfirst, Option.some.injEq] at hfirst'
                  subst hfirst'
                  rw [htext, classHeader?_brace] at hheader
                  exact absurd hheader (by simp)
              simp only [h.nextBrace?_eq hline]
              cases hnext : nextBrace? s n with
              | none => exact ⟨rfl, by simp⟩
              | some opening =>
                  obtain ⟨-, l', hl', hcell⟩ := nextBrace?_spec hnext
                  obtain ⟨stop, ht, hs, hstop⟩ := h.classStop_eq (mem_spots_of_cell hl' hcell)
                  simp only [Option.bind_some, ht, hs, true_and]
                  intro found hfound
                  rw [← Option.some.inj hfound]
                  exact ⟨hn, hstop⟩

/-- The classes of the upper text come first. -/
theorem classBlocks_eq : classBlocks t = classBlocks s ++
    (below.zipIdx s.lineCount).filterMap fun (l, n) => classBlock? t n l := by
  rw [classBlocks, classBlocks, h.lines, List.zipIdx_append, List.filterMap_append, Nat.zero_add]
  refine congrArg (· ++ _) ?_
  apply List.filterMap_congr
  rintro ⟨l, n⟩ hmem
  exact (h.classBlock?_eq (List.mk_mem_zipIdx_iff_getElem?.1 hmem)).1

theorem classBlocks_above {c : ClassBlock} (hc : c ∈ classBlocks s) :
    c.span.IsAbove s.lineCount := by
  obtain ⟨⟨l, n⟩, hmem, hfound⟩ := List.mem_filterMap.1 hc
  exact (h.classBlock?_eq (List.mk_mem_zipIdx_iff_getElem?.1 hmem)).2 c hfound

/-! ### Comments and variables -/

theorem documentationAbove?_eq {n : Nat} (hn : n ≤ s.lineCount) :
    documentationAbove? t n = documentationAbove? s n := by
  have hlines : commentLinesAbove t n = commentLinesAbove s n := by
    rw [commentLinesAbove, commentLinesAbove, h.lines, List.take_append_of_le_length hn]
  rw [documentationAbove?, hlines]
  rfl

theorem findVariables_eq {body : Span} (hbody : body.IsAbove s.lineCount) (excluded : List Span)
    (parameters : List Parameter) :
    findVariables t body excluded parameters = findVariables s body excluded parameters := by
  -- the lines of the body end before the seam
  have hlines : (t.lines.zipIdx.drop body.start.line).take
        (body.stop.line + 1 - body.start.line) =
      (s.lines.zipIdx.drop body.start.line).take (body.stop.line + 1 - body.start.line) := by
    obtain ⟨hstart, hstop⟩ := hbody
    simp only [lineCount] at hstart hstop
    rw [h.lines, List.zipIdx_append, List.drop_append_of_le_length (by simp; omega),
      List.take_append_of_le_length (by simp; omega)]
  simp only [findVariables, bodyLines, hlines]

/-! ### Records -/

/-- The record of a declaration of the upper text is what it was. -/
theorem routineOf_eq {d : Declaration} (hd : d ∈ declarations s) (version : Int32)
    (spans lowerSpans : List Span) (classes lowerClasses : List ClassBlock) :
    routineOf t version (spans ++ lowerSpans.map (Span.down s.lineCount))
        (classes ++ lowerClasses.map (ClassBlock.down s.lineCount)) d =
      routineOf s version spans classes d := by
  obtain ⟨hspan, hbody, habove, hbodyAbove⟩ := h.span_eq hd
  have hdocumentation : documentationAbove? t d.start.line = documentationAbove? s d.start.line :=
    h.documentationAbove?_eq (Nat.le_of_lt habove.1)
  simp only [routineOf, nestedSpans_above hspan hbody hbodyAbove]
  rw [hspan, hbody, owningClass?_above habove, h.findVariables_eq hbodyAbove, hdocumentation]

end Source.IsAtop

end ScriptOutline
