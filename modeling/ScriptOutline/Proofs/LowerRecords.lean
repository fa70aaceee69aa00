/-
**The records of a text that stands below other lines.**

What stands above a text can only widen the lists of spans and classes that a record is judged by.
None of them matters, since a span that ends above a declaration neither lies in its body nor holds
it; and a comment above the text is cut off by a line that is no comment.

Main definitions:

* `Variable.down`, `Variables.down`, `Routine.down`, `ClassBlock.down` — the same, a number of
  lines further down;
* `Span.IsAbove` — a span ends above a line.

Main results:

* `Source.IsBelow.findVariables_down` — the variables of a body;
* `Source.IsBelow.classBlock?_down`, `owningClass?_down` — classes;
* `Source.IsBelow.documentationAbove?_down` — comments;
* `Source.IsBelow.routineOf_down` — the record of a declaration moves down as a whole.
-/

import ScriptOutline.Proofs.LowerPart
import ScriptOutline.Routine.Assembly

set_option relaxedAutoImplicit false
set_option autoImplicit false

namespace ScriptOutline

/-! ### Moving down -/

/-- A variable, a number of lines further down. -/
def Variable.down (k : Nat) (v : Variable) : Variable :=
  { v with position := v.position.down k }

/-- Variables, a number of lines further down. -/
def Variables.down (k : Nat) (v : Variables) : Variables :=
  ⟨v.statics.map (Variable.down k), v.locals.map (Variable.down k),
    v.globals.map (Variable.down k)⟩

/-- A line of a body, a number of lines further down. -/
def BodyLine.down (k : Nat) (l : BodyLine) : BodyLine :=
  ⟨l.number + k, l.text⟩

/-- A class, a number of lines further down. -/
def ClassBlock.down (k : Nat) (c : ClassBlock) : ClassBlock :=
  ⟨c.name, c.span.down k⟩

/-- A routine, a number of lines further down. -/
def Routine.down (k : Nat) (r : Routine) : Routine :=
  { r with vars := r.vars.down k, span := r.span.down k }

/-! ### Variables -/

theorem belongsTo_down (k : Nat) (body : Span) (excluded : List Span) (p : Position) :
    belongsTo (body.down k) (excluded.map (Span.down k)) (p.down k) = belongsTo body excluded p := by
  simp only [belongsTo, Span.contains_down, List.any_map, Function.comp_def]

theorem bodyText_down (k : Nat) (body : Span) (excluded : List Span) (n : Nat) (l : Line) :
    bodyText (body.down k) (excluded.map (Span.down k)) (n + k) l = bodyText body excluded n l := by
  unfold bodyText
  congr 1
  funext x
  obtain ⟨c, column⟩ := x
  have hbelongs := belongsTo_down k body excluded ⟨n, column⟩
  simp only [Position.down] at hbelongs
  simp only [hbelongs]

theorem BodyLine.declared_down (k : Nat) (l : BodyLine) :
    (l.down k).declared = l.declared.map (Variable.down k) := by
  simp only [declared, down]
  cases declaredOn? l.text with
  | none => rfl
  | some found =>
      rw [List.map_map]
      rfl

theorem BodyLine.implied_down (k : Nat) (l : BodyLine) :
    (l.down k).implied = l.implied.map (Variable.down k) := by
  simp only [implied, down]
  cases declaredOn? l.text with
  | none =>
      rw [List.map_map]
      rfl
  | some found => rfl

theorem mentionedVariables_down (k : Nat) (lines : List BodyLine) :
    mentionedVariables (lines.map (BodyLine.down k)) =
      (mentionedVariables lines).map (Variable.down k) := by
  simp only [mentionedVariables, List.map_append, List.map_flatMap, List.flatMap_map,
    BodyLine.declared_down, BodyLine.implied_down]

theorem firstMentions_down (k : Nat) (taken : List String) (vars : List Variable) :
    firstMentions taken (vars.map (Variable.down k)) =
      (firstMentions taken vars).map (Variable.down k) := by
  induction vars generalizing taken with
  | nil => rfl
  | cons v rest ih =>
      have hname : (v.down k).name = v.name := rfl
      simp only [List.map_cons, firstMentions, hname]
      split
      · exact ih taken
      · rw [List.map_cons, ih]

theorem Variables.ofList_down (k : Nat) (vars : List Variable) :
    Variables.ofList (vars.map (Variable.down k)) = (Variables.ofList vars).down k := by
  have hscope : ∀ scope, (vars.map (Variable.down k)).filter (·.scope = scope) =
      (vars.filter (·.scope = scope)).map (Variable.down k) := by
    intro scope
    rw [List.filter_map]
    rfl
  simp only [ofList, down, hscope]

/-! ### What starts last -/

theorem latest?_map {α β : Type} {start : α → Position} {start' : β → Position} {f : α → β}
    (hf : ∀ a b, start' (f a) ≤ start' (f b) ↔ start a ≤ start b) (l : List α) :
    latest? start' (l.map f) = (latest? start l).map f := by
  induction l with
  | nil => rfl
  | cons a rest ih =>
      simp only [List.map_cons, latest?, ih]
      cases latest? start rest with
      | none => rfl
      | some b =>
          simp only [Option.map_some, hf]
          split <;> rfl

/-! ### Spans that stand above -/

/-- A span lies above a line. -/
def Span.IsAbove (k : Nat) (t : Span) : Prop :=
  t.start.line < k ∧ t.stop.line < k

theorem Span.encloses_down_above {k : Nat} {t u : Span} (h : u.IsAbove k) :
    (t.down k).encloses u = false := by
  simp only [encloses, Bool.and_eq_false_iff, decide_eq_false_iff_not, Position.le_iff]
  refine Or.inl ?_
  simp only [start_down, Position.down]
  have hstart := h.1
  omega

theorem Span.above_encloses_down {k : Nat} {t u : Span} (h : t.IsAbove k) :
    t.encloses (u.down k) = false := by
  simp only [encloses, Bool.and_eq_false_iff, decide_eq_false_iff_not, Position.le_iff]
  refine Or.inr ?_
  simp only [stop_down, Position.down]
  have hstop := h.2
  omega

/-- Spans and classes above do not change which class a span belongs to. -/
theorem owningClass?_down {k : Nat} {upperSpans spans : List Span}
    {upperClasses classes : List ClassBlock}
    (hspans : ∀ u ∈ upperSpans, u.IsAbove k)
    (hclasses : ∀ c ∈ upperClasses, c.span.IsAbove k) (span : Span) :
    owningClass? (span.down k) (upperSpans ++ spans.map (Span.down k))
        (upperClasses ++ classes.map (ClassBlock.down k)) =
      owningClass? span spans classes := by
  -- no class above holds the span, so the classes that do are the lower ones
  have hupper : upperClasses.filter (fun c => c.span.encloses (span.down k)) = [] := by
    rw [List.filter_eq_nil_iff]
    intro c hc
    rw [Span.above_encloses_down (hclasses c hc)]
    decide
  have hlower : (classes.map (ClassBlock.down k)).filter
        (fun c => c.span.encloses (span.down k)) =
      (classes.filter fun c => c.span.encloses span).map (ClassBlock.down k) := by
    rw [List.filter_map]
    congr 2
    funext c
    simp only [Function.comp_apply, ClassBlock.down, Span.encloses_down]
  have hlatest : ∀ found : List ClassBlock,
      latest? (·.span.start) (found.map (ClassBlock.down k)) =
        (latest? (·.span.start) found).map (ClassBlock.down k) :=
    latest?_map fun _ _ => Position.down_le_down
  simp only [owningClass?, List.filter_append, hupper, List.nil_append, hlower, hlatest]
  cases latest? (·.span.start) (classes.filter fun c => c.span.encloses span) with
  | none => rfl
  | some block =>
      -- no declaration above holds the span, so none comes between the class and it
      have hany : upperSpans.any (fun other => other ≠ span.down k &&
          other.encloses (span.down k) &&
            decide ((block.down k).span.start < other.start)) = false := by
        rw [List.any_eq_false]
        intro u hu
        simp [Span.above_encloses_down (hspans u hu)]
      simp only [Option.map_some, Option.bind_eq_bind, Option.bind_some, List.any_append, hany,
        Bool.false_or, List.any_map, Function.comp_def, ne_eq, Span.down_inj, Span.encloses_down]
      simp only [ClassBlock.down, Span.start_down, Position.down_lt_down]

namespace Source.IsBelow

variable {above : List Line} {s t : Source} (h : s.IsBelow above t)

include h

theorem bodyLines_down (body : Span) (excluded : List Span) :
    bodyLines t (body.down above.length) (excluded.map (Span.down above.length)) =
      (bodyLines s body excluded).map (BodyLine.down above.length) := by
  -- the lines of the body are the same ones, with higher numbers
  have hdrop : t.lines.zipIdx.drop (body.start.line + above.length) =
      (s.lines.zipIdx.drop body.start.line).map fun x => (x.1, x.2 + above.length) := by
    rw [h.lines, List.zipIdx_append, Nat.add_comm, ← List.drop_drop, List.drop_left' (by simp),
      Nat.zero_add, List.map_drop, List.zipIdx_eq_map_add]
    congr 2
    funext x
    obtain ⟨l, n⟩ := x
    simp only [Nat.add_comm]
  have hcount : body.stop.line + above.length + 1 - (body.start.line + above.length) =
      body.stop.line + 1 - body.start.line := by
    omega
  have hline : (fun x : Line × Nat => (⟨x.2, bodyText (body.down above.length)
        (excluded.map (Span.down above.length)) x.2 x.1⟩ : BodyLine)) ∘
        (fun x : Line × Nat => (x.1, x.2 + above.length)) =
      BodyLine.down above.length ∘ fun x => ⟨x.2, bodyText body excluded x.2 x.1⟩ := by
    funext x
    obtain ⟨l, n⟩ := x
    simp only [Function.comp_apply, bodyText_down]
    rfl
  simp only [bodyLines, Span.start_down, Span.stop_down, Position.down, hdrop, hcount]
  rw [← List.map_take, List.map_map, hline, ← List.map_map, List.filter_map]
  rfl

theorem findVariables_down (body : Span) (excluded : List Span) (parameters : List Parameter) :
    findVariables t (body.down above.length) (excluded.map (Span.down above.length)) parameters =
      (findVariables s body excluded parameters).down above.length := by
  simp only [findVariables, h.bodyLines_down, mentionedVariables_down, firstMentions_down,
    Variables.ofList_down]

/-! ### Classes -/

/-- A class on a line is found on the line further down. -/
theorem classBlock?_down (n : Nat) (l : Line) :
    classBlock? t (n + above.length) l = (classBlock? s n l).map (ClassBlock.down above.length) := by
  have hstop : ∀ opening : Position,
      ((t.matchingBrace? (opening.down above.length)).map Position.next).getD t.endPosition =
        (((s.matchingBrace? opening).map Position.next).getD s.endPosition).down above.length := by
    intro opening
    rw [h.braces, h.endPosition_down]
    cases s.matchingBrace? opening <;> rfl
  simp only [classBlock?, Option.bind_eq_bind]
  cases l.firstCode? with
  | none => rfl
  | some first =>
      simp only [Option.bind_some]
      cases classHeader? (l.codeText.drop first) with
      | none => rfl
      | some header =>
          obtain ⟨name, brace⟩ := header
          simp only [Option.bind_some]
          cases brace with
          | some length =>
              have hopening := hstop ⟨n, l.length - length⟩
              simp only [Position.down] at hopening
              simp only [hopening]
              rfl
          | none =>
              simp only [h.nextBrace?_down]
              cases nextBrace? s n with
              | none => rfl
              | some opening =>
                  simp only [Option.map_some, Option.bind_some, hstop]
                  rfl

/-! ### Comments -/

/-- A line that is no comment cuts off the comments above it. -/
theorem documentationAbove?_down (hlast : above.getLast?.any Line.isCommentOnly = false) (n : Nat) :
    documentationAbove? t (n + above.length) = documentationAbove? s n := by
  have hcut : ∀ lines : List Line, (lines ++ above.reverse).takeWhile Line.isCommentOnly =
      lines.takeWhile Line.isCommentOnly := by
    intro lines
    induction lines with
    | nil =>
        -- the comments have run up to the line above, and end there
        rw [← List.head?_reverse] at hlast
        cases hr : above.reverse with
        | nil => rfl
        | cons l rest =>
            rw [hr] at hlast
            simp only [List.head?_cons, Option.any_some] at hlast
            simp [hlast]
    | cons l rest ih =>
        simp only [List.cons_append, List.takeWhile_cons, ih]
  have htake : t.lines.take (n + above.length) = above ++ s.lines.take n := by
    rw [h.lines, List.take_append, List.take_of_length_le (Nat.le_add_left _ _),
      Nat.add_sub_cancel]
  have hlines : commentLinesAbove t (n + above.length) = commentLinesAbove s n := by
    rw [commentLinesAbove, commentLinesAbove, htake, List.reverse_append, hcut]
  rw [documentationAbove?, hlines]
  rfl

/-! ### Records -/

theorem nestedSpans_down {upperSpans : List Span}
    (hspans : ∀ u ∈ upperSpans, u.IsAbove above.length) (spans : List Span) (d : Declaration) :
    nestedSpans t (upperSpans ++ spans.map (Span.down above.length)) (d.down above.length) =
      (nestedSpans s spans d).map (Span.down above.length) := by
  have hupper : upperSpans.filter (fun other => other ≠ (d.span s).down above.length &&
      ((d.bodySpan s).down above.length).encloses other) = [] := by
    rw [List.filter_eq_nil_iff]
    intro u hu
    simp [Span.encloses_down_above (hspans u hu)]
  simp only [nestedSpans, h.span_down, h.bodySpan_down, List.filter_append, hupper,
    List.nil_append, List.filter_map]
  congr 2
  funext other
  simp only [Function.comp_apply, ne_eq, Span.down_inj, Span.encloses_down]

/-- The record of a declaration moves down as a whole. -/
theorem routineOf_down {upperSpans spans : List Span} {upperClasses classes : List ClassBlock}
    (hspans : ∀ u ∈ upperSpans, u.IsAbove above.length)
    (hclasses : ∀ c ∈ upperClasses, c.span.IsAbove above.length)
    (hlast : above.getLast?.any Line.isCommentOnly = false) (version : Int32) (d : Declaration) :
    routineOf t version (upperSpans ++ spans.map (Span.down above.length))
        (upperClasses ++ classes.map (ClassBlock.down above.length)) (d.down above.length) =
      (routineOf s version spans classes d).down above.length := by
  have hdocumentation : documentationAbove? t (d.down above.length).start.line =
      documentationAbove? s d.start.line := h.documentationAbove?_down hlast d.start.line
  have hparameters : (d.down above.length).parameters = d.parameters := rfl
  have hkind : (d.down above.length).body.kind = d.body.kind := by
    cases hbody : d.body <;> simp [Declaration.down, Body.down, Body.kind, hbody]
  simp only [routineOf, Routine.down, h.span_down, h.bodySpan_down, h.nestedSpans_down hspans,
    h.findVariables_down, owningClass?_down hspans hclasses, hdocumentation, hparameters, hkind]
  rfl

end Source.IsBelow

end ScriptOutline
