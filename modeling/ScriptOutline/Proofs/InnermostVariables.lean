/-
**To which function a variable belongs.**

A variable is looked for in a body without the declarations nested in it.  A declaration counts as
nested if it lies in the body as a whole, so that a variable is reported by the innermost function
around it unless a declaration that holds it starts in the body and reaches the end of the function
or passes it.

Main definitions:

* `halfTyped` — a text in which a function and the one nested in it report one variable.

Main results:

* `belongsTo_of_mem_findVariables` — a variable lies in the body, and in none of the spans that are
  cut out of it;
* `Declaration.mem_nestedSpans` — what starts and ends in a function is cut out of its body;
* `variable_innermost_iff` — when the innermost function at a variable is the one that reports it.
-/

import ScriptOutline.Proofs.MentionColumns
import ScriptOutline.Proofs.RecordOrder

set_option relaxedAutoImplicit false
set_option autoImplicit false

namespace ScriptOutline

/-! ### Where variables lie -/

theorem mem_of_mem_firstMentions {taken : List String} {vars : List Variable} {v : Variable}
    (h : v ∈ firstMentions taken vars) : v ∈ vars := by
  induction vars generalizing taken with
  | nil => simp [firstMentions] at h
  | cons w rest ih =>
      simp only [firstMentions] at h
      split at h
      · exact List.mem_cons_of_mem w (ih h)
      · rcases List.mem_cons.1 h with rfl | h
        · exact List.mem_cons_self
        · exact List.mem_cons_of_mem w (ih h)

theorem Variables.mem_of_mem_toList_ofList {vars : List Variable} {v : Variable}
    (h : v ∈ (Variables.ofList vars).toList) : v ∈ vars := by
  simp only [Variables.ofList, Variables.toList, List.mem_append, List.mem_filter] at h
  rcases h with (h | h) | h
  · exact h.1
  · exact h.1
  · exact h.1

/-- Every variable of a line comes from a mention on it. -/
theorem exists_mention {lines : List BodyLine} {v : Variable} (h : v ∈ mentionedVariables lines) :
    ∃ l ∈ lines, ∃ m : Mention, m.IsOn l.text ∧ v.position = ⟨l.number, m.column⟩ := by
  rcases List.mem_append.1 h with h | h
  · obtain ⟨l, hl, hv⟩ := List.mem_flatMap.1 h
    unfold BodyLine.declared at hv
    split at hv
    · next scope mentions hdeclared =>
        obtain ⟨m, hm, rfl⟩ := List.mem_map.1 hv
        exact ⟨l, hl, m, isOn_of_mem_declaredOn? hdeclared hm, rfl⟩
    · simp at hv
  · obtain ⟨l, hl, hv⟩ := List.mem_flatMap.1 h
    unfold BodyLine.implied at hv
    split at hv
    · simp at hv
    · obtain ⟨m, hm, rfl⟩ := List.mem_map.1 hv
      exact ⟨l, hl, m, isOn_of_mem_impliedOn hm, rfl⟩

/-- A line of a body shows what belongs to the body, and blanks elsewhere. -/
theorem mem_bodyLines {s : Source} {body : Span} {excluded : List Span} {b : BodyLine}
    (h : b ∈ bodyLines s body excluded) :
    ∃ l, s.line? b.number = some l ∧ b.text = bodyText body excluded b.number l := by
  obtain ⟨hmem, -⟩ := List.mem_filter.1 h
  obtain ⟨⟨l, number⟩, hl, rfl⟩ := List.mem_map.1 hmem
  have hline := List.mem_of_mem_drop (List.mem_of_mem_take hl)
  exact ⟨l, List.mk_mem_zipIdx_iff_getElem?.1 hline, rfl⟩

/-- Where a line of a body shows more than a blank, it belongs to the body. -/
theorem belongsTo_of_bodyText {body : Span} {excluded : List Span} {number column : Nat} {l : Line}
    {c : Char} (h : (bodyText body excluded number l)[column]? = some c) (hc : c ≠ ' ') :
    belongsTo body excluded ⟨number, column⟩ = true := by
  simp only [bodyText, List.getElem?_map, List.getElem?_zipIdx, Option.map_map,
    Option.map_eq_some_iff, Function.comp_apply, Nat.zero_add] at h
  obtain ⟨shown, -, hshown⟩ := h
  split at hshown
  · next hbelongs => exact hbelongs
  · exact absurd hshown.symm hc

/-- A mention starts at a character that is not a blank. -/
theorem Mention.IsOn.exists_char {m : Mention} {cs : List Char} (h : m.IsOn cs) :
    ∃ c, cs[m.column]? = some c ∧ c ≠ ' ' := by
  obtain ⟨hname, before, after, rfl, hcolumn⟩ := h
  cases hm : m.name with
  | nil =>
      rw [hm] at hname
      exact absurd hname (by decide)
  | cons c rest =>
      refine ⟨c, ?_, ?_⟩
      · rw [hcolumn, Nat.zero_add, List.append_assoc, List.getElem?_append_right (Nat.le_refl _),
          Nat.sub_self]
        rfl
      · rintro rfl
        have hword := isWordChar_of_mem hname (by rw [hm]; exact List.mem_cons_self)
        exact absurd hword (by decide)

/-- A variable lies in the body, and in none of the spans that are cut out of it. -/
theorem belongsTo_of_mem_findVariables {s : Source} {body : Span} {excluded : List Span}
    {parameters : List Parameter} {v : Variable}
    (h : v ∈ (findVariables s body excluded parameters).toList) :
    belongsTo body excluded v.position = true := by
  have hmentioned := mem_of_mem_firstMentions (Variables.mem_of_mem_toList_ofList h)
  obtain ⟨b, hb, m, hm, hposition⟩ := exists_mention hmentioned
  obtain ⟨l, -, htext⟩ := mem_bodyLines hb
  obtain ⟨c, hc, hblank⟩ := hm.exists_char
  rw [htext] at hc
  rw [hposition]
  exact belongsTo_of_bodyText hc hblank

/-! ### Bodies and what is nested in them -/

theorem Span.contains_iff {t : Span} {p : Position} :
    t.contains p = true ↔ t.start ≤ p ∧ p < t.stop := by
  simp [Span.contains]

theorem Span.encloses_iff {t u : Span} :
    t.encloses u = true ↔ t.start ≤ u.start ∧ u.stop ≤ t.stop := by
  simp [Span.encloses]

namespace Declaration

theorem bodyStart_le (s : Source) (d : Declaration) : d.bodyStart ≤ (d.bodySpan s).start := by
  unfold bodyStart bodySpan
  cases d.body with
  | block opening closing => exact le_of_lt opening.lt_next
  | arrow start stop => exact le_refl start

theorem line_bodySpan_start (s : Source) (d : Declaration) :
    (d.bodySpan s).start.line = d.bodyStart.line := by
  unfold bodyStart bodySpan
  cases d.body <;> rfl

/-- Only the closing brace of a block comes between the end of a body and that of its function. -/
theorem stop_le_of_bodySpan_stop_lt {s : Source} {d : Declaration} {p : Position}
    (h : (d.bodySpan s).stop < p) : d.stop s ≤ p := by
  unfold bodySpan at h
  unfold stop
  cases hbody : d.body with
  | arrow start stop =>
      rw [hbody] at h
      exact le_of_lt h
  | block opening closing =>
      rw [hbody] at h
      cases closing with
      | none => exact le_of_lt h
      | some closing => exact Position.next_le_iff.2 h

theorem bodySpan_stop_le (s : Source) (d : Declaration) : (d.bodySpan s).stop ≤ d.stop s := by
  unfold bodySpan stop
  cases d.body with
  | arrow start stop => exact le_refl stop
  | block opening closing =>
      cases closing with
      | none => exact le_refl s.endPosition
      | some closing => exact le_of_lt closing.lt_next

/-- A function holds its body. -/
theorem span_contains {s : Source} {d : Declaration} (hd : d.Placed s) {p : Position}
    (h : (d.bodySpan s).contains p = true) : (d.span s).contains p = true := by
  rw [Span.contains_iff] at h ⊢
  constructor
  · exact le_trans (le_of_lt hd.start_lt) (le_trans (d.bodyStart_le s) h.1)
  · exact lt_of_lt_of_le h.2 (d.bodySpan_stop_le s)

/-- What starts after a function and ends before it is cut out of its body. -/
theorem mem_nestedSpans {s : Source} {d e : Declaration} (hd : d ∈ declarations s)
    (he : e ∈ declarations s) (hstart : d.start < e.start) (hstop : e.stop s < d.stop s) :
    e.span s ∈ nestedSpans s (declaredSpans s) d := by
  refine List.mem_filter.2 ⟨List.mem_map_of_mem he, ?_⟩
  simp only [ne_eq, Bool.and_eq_true, decide_eq_true_eq]
  constructor
  · intro hspan
    have heq : e.start = d.start := congrArg Span.start hspan
    exact absurd heq (ne_of_gt hstart)
  · rw [Span.encloses_iff]
    constructor
    · apply le_of_lt
      apply Position.lt_of_line_lt
      rw [line_bodySpan_start]
      exact bodyStart_lt_of_start_lt hd he hstart
    · -- only a closing brace follows the body, so nothing else ends between the two
      rcases lt_or_ge (d.bodySpan s).stop (e.stop s) with hlt | hge
      · exact absurd hstop (not_lt_of_ge (stop_le_of_bodySpan_stop_lt hlt))
      · exact hge

end Declaration

/-! ### The innermost function -/

/-- A variable lies in the record that reports it. -/
theorem contains_of_mem_vars {s : Source} {version : Int32} {f : Routine}
    (hf : f ∈ assemble s version) {v : Variable} (hv : v ∈ f.vars.toList) :
    f.span.contains v.position = true := by
  obtain ⟨d, hd, rfl⟩ := mem_assemble.1 hf
  have hbelongs := belongsTo_of_mem_findVariables hv
  simp only [belongsTo, Bool.and_eq_true] at hbelongs
  exact Declaration.span_contains (declarations_placed hd) hbelongs.1

/-- A record that starts after another and holds a variable of it reaches its end. -/
theorem stop_le_of_contains_var {s : Source} {version : Int32} {f g : Routine}
    (hf : f ∈ assemble s version) (hg : g ∈ assemble s version) {v : Variable}
    (hv : v ∈ f.vars.toList) (hstart : f.span.start < g.span.start)
    (hcontains : g.span.contains v.position = true) : f.span.stop ≤ g.span.stop := by
  obtain ⟨d, hd, rfl⟩ := mem_assemble.1 hf
  obtain ⟨e, he, rfl⟩ := mem_assemble.1 hg
  have hbelongs := belongsTo_of_mem_findVariables hv
  simp only [belongsTo, Bool.and_eq_true, Bool.not_eq_true', List.any_eq_false] at hbelongs
  rcases lt_or_ge (e.stop s) (d.stop s) with hlt | hge
  · have hnested := Declaration.mem_nestedSpans hd he hstart hlt
    exact absurd hcontains (hbelongs.2 _ hnested)
  · exact hge

/--
The innermost record at a variable is the one that reports it, unless a record that starts later and
holds the variable reaches the end of the first or passes it.  Of two records that report variables
at one position, the one that starts later does so.
-/
theorem variable_innermost_iff (text : List Char) (version : Int32) :
    ∀ f ∈ routinesOf text version, ∀ v ∈ f.vars.toList,
      (routineAt? (routinesOf text version) v.position = some f ↔
        ¬∃ g ∈ routinesOf text version, f.span.start < g.span.start ∧
          f.span.stop ≤ g.span.stop ∧ g.span.contains v.position = true) ∧
      ∀ g ∈ routinesOf text version, ∀ w ∈ g.vars.toList, w.position = v.position →
        f.span.start < g.span.start → f.span.stop ≤ g.span.stop := by
  intro f hf v hv
  have hcontains := contains_of_mem_vars hf hv
  constructor
  · unfold routinesOf at hf ⊢
    rw [routineAt?_eq_some_iff hf hcontains]
    constructor
    · rintro h ⟨g, hg, hstart, -, hheld⟩
      rw [h g hg hstart] at hheld
      exact Bool.noConfusion hheld
    · intro h g hg hstart
      cases hheld : g.span.contains v.position with
      | false => rfl
      | true =>
          have hstop := stop_le_of_contains_var hf hg hv hstart hheld
          exact absurd ⟨g, hg, hstart, hstop, hheld⟩ h
  · intro g hg w hw hposition hstart
    have hheld := contains_of_mem_vars hg hw
    rw [hposition] at hheld
    exact stop_le_of_contains_var hf hg hv hstart hheld

/-- A function whose body has another one with a parenthesis that is still open. -/
def halfTyped : List Char :=
  "A() \x7b\n  B() => (x := 1\n\x7d".toList

/-- The expression of the inner function takes the closing brace of the outer one. -/
theorem halfTyped_records :
    (routinesOf halfTyped 0).map (fun r => (r.name, r.span, r.vars.toList.map (·.position))) =
      [("A", ⟨⟨0, 0⟩, ⟨2, 1⟩⟩, [⟨1, 10⟩]), ("B", ⟨⟨1, 2⟩, ⟨2, 1⟩⟩, [⟨1, 10⟩])] := by
  rewrite [routinesOf, assemble_eq]
  decide +kernel

/-- There both functions report one variable, and only the inner one is found at it. -/
theorem variable_innermost_iff_halfTyped :
    ∃ f ∈ routinesOf halfTyped 0, ∃ v ∈ f.vars.toList, ∃ g ∈ routinesOf halfTyped 0,
      ∃ w ∈ g.vars.toList, f.name = "A" ∧ g.name = "B" ∧ w.position = v.position ∧
        routineAt? (routinesOf halfTyped 0) v.position ≠ some f := by
  obtain ⟨f, rest, hrecords, hf, hrest⟩ := List.map_eq_cons_iff.1 halfTyped_records
  obtain ⟨g, _, rfl, hg, -⟩ := List.map_eq_cons_iff.1 hrest
  simp only [Prod.mk.injEq] at hf hg
  obtain ⟨v, _, hv, hvposition, -⟩ := List.map_eq_cons_iff.1 hf.2.2
  obtain ⟨w, _, hw, hwposition, -⟩ := List.map_eq_cons_iff.1 hg.2.2
  have hfmem : f ∈ routinesOf halfTyped 0 := by simp [hrecords]
  have hgmem : g ∈ routinesOf halfTyped 0 := by simp [hrecords]
  have hvmem : v ∈ f.vars.toList := by simp [hv]
  have hwmem : w ∈ g.vars.toList := by simp [hw]
  refine ⟨f, hfmem, v, hvmem, g, hgmem, w, hwmem, hf.1, hg.1, by rw [hvposition, hwposition], ?_⟩
  rw [ne_eq, (variable_innermost_iff halfTyped 0 f hfmem v hvmem).1, not_not]
  refine ⟨g, hgmem, ?_⟩
  rw [hf.2.1, hg.2.1, hvposition]
  decide

end ScriptOutline
