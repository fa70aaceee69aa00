/-
**Where the records of a text lie.**

A declaration starts at the first code of its line and ends behind its start, at or before the end
of the text.  Its header ends on the line it starts on or below, so that the search for the next one
goes on further down and comes to an end.  Records therefore start on lines that increase, and the
innermost record at a position is the one that starts last among those that hold it.

Main definitions:

* `declarationsBelow` — the declarations from a line on, each behind the header of the one before;
* `Routine.StandsIn` — what holds of the place, the name and the version of a record.

Main results:

* `Body.reaches_stop` — a body ends at a place of the text, and not before its start;
* `declarations_eq_below` — the search finds the same declarations when it goes by line numbers;
* `standsIn_of_mem_assemble` — every record stands in its text;
* `records_in_order` — records lie on increasing lines, and the innermost one at a position is the
  last that holds it.
-/

import ScriptOutline.Proofs.BraceBalance
import ScriptOutline.Proofs.Forest

set_option relaxedAutoImplicit false
set_option autoImplicit false

namespace ScriptOutline

/-! ### Places of a text -/

namespace Source

/-- The end of a text is a place of it. -/
theorem reaches_endPosition {s : Source} {p : Position} (h : s.Reaches p) :
    s.Reaches s.endPosition := by
  have hlast : s.lineCount - 1 < s.lineCount := by
    have hlt := h.line_lt
    omega
  have hline : s.line? (s.lineCount - 1) = some s.lines[s.lineCount - 1] :=
    List.getElem?_eq_getElem hlast
  rw [endPosition_eq hline]
  exact ⟨_, hline, Nat.le_refl _⟩

/-- Both sides of a character are places of the text. -/
theorem reaches_of_not_break {s : Source} {x : Spot} (hx : x ∈ s.spots) (h : x.isBreak = false) :
    s.Reaches x.position ∧ s.Reaches x.position.next := by
  refine ⟨reaches_of_mem_spots hx, ?_⟩
  obtain ⟨l, hl, hcell | hbreak⟩ := mem_spots_iff.1 hx
  · exact reaches_next_of_cell hl hcell
  · rw [hbreak] at h
    exact absurd h (by simp [Line.breakSpot, Spot.isBreak])

end Source

/-! ### Ends of bodies -/

/-- An expression ends at a place of the text, and not before its start. -/
theorem reaches_stop_arrowAt {s : Source} {p : Position} (hp : s.Reaches p) :
    s.Reaches ((arrowAt s p).stop s) ∧ p ≤ (arrowAt s p).stop s := by
  have hrun := @ArrowState.run_preserves (fun q => s.Reaches q ∧ p ≤ q) ⟨0, none⟩ (s.spotsFrom p)
    (by simp) (by
      intro x hx hbreak
      obtain ⟨hmem, hle⟩ := (Source.mem_spotsFrom_iff hp).1 hx
      obtain ⟨hleft, hright⟩ := Source.reaches_of_not_break hmem hbreak
      exact ⟨⟨hleft, hle⟩, hright, le_trans hle (le_of_lt x.position.lt_next)⟩)
  rw [stop_arrowAt]
  cases h : ArrowState.run ⟨0, none⟩ (s.spotsFrom p) with
  | error stop =>
      rw [h] at hrun
      exact hrun
  | ok state =>
      rw [h] at hrun
      obtain ⟨depth, last⟩ := state
      cases last with
      | none => exact ⟨Source.reaches_endPosition hp, Source.le_endPosition hp⟩
      | some l => exact hrun l rfl

/-- A block ends at a place of the text, and not before its start. -/
theorem reaches_stop_blockAt {s : Source} (hs : s.IsPaired) {p : Position}
    (hp : ⟨p, ⟨'{', .code⟩⟩ ∈ s.spots) :
    s.Reaches ((blockAt s p).stop s) ∧ p ≤ (blockAt s p).stop s := by
  have hreaches : s.Reaches p := Source.reaches_of_mem_spots hp
  cases hmatch : s.matchingBrace? p with
  | none =>
      simp only [blockAt, Body.stop, hmatch]
      exact ⟨Source.reaches_endPosition hreaches, Source.le_endPosition hreaches⟩
  | some c =>
      obtain ⟨-, hclose, hlt, -⟩ := (Source.matchingBrace?_eq_some_iff hs).1 hmatch
      rw [Source.cell?_eq_some_iff (by decide)] at hclose
      rw [stop_blockAt hmatch]
      exact ⟨(Source.reaches_of_not_break hclose rfl).2, le_of_lt (lt_trans hlt c.lt_next)⟩

/-- A body ends at a place of the text, and not before its start. -/
theorem Body.reaches_stop {s : Source} (hs : s.IsPaired) {b : Body} (hb : b.IsAt s) :
    s.Reaches (b.stop s) ∧ b.start ≤ b.stop s := by
  rcases hb with ⟨hp, hb⟩ | ⟨hp, hb⟩
  · rw [hb]
    exact reaches_stop_blockAt hs hp
  · rw [hb]
    exact reaches_stop_arrowAt hp

/-! ### The search for declarations -/

/-- A header ends on the line it starts on, or below. -/
theorem le_headerLine {s : Source} {n : Nat} {d : Declaration} (h : declaration? s n = some d) :
    n ≤ d.headerLine := by
  obtain ⟨hplaced, hline⟩ := declaration?_placed h
  have hle := Position.line_le_of_le (le_of_lt hplaced.start_lt)
  rw [hplaced.bodyStart_line, hline] at hle
  exact hle

/--
The declarations from a line on.  Behind a declaration the search goes on below its header, which
is further down, so that it comes to the end of the text.
-/
def declarationsBelow (s : Source) (n : Nat) : List Declaration :=
  if n < s.lineCount then
    match _h : declaration? s n with
    | some d => d :: declarationsBelow s (d.headerLine + 1)
    | none => declarationsBelow s (n + 1)
  else []
termination_by s.lineCount - n
decreasing_by
  · have hle := le_headerLine _h
    omega
  · omega

theorem declarationsBelow_of_ge {s : Source} {n : Nat} (h : s.lineCount ≤ n) :
    declarationsBelow s n = [] := by
  rw [declarationsBelow, if_neg (by omega)]

theorem declarationsBelow_of_lt {s : Source} {n : Nat} (h : n < s.lineCount) :
    declarationsBelow s n =
      match declaration? s n with
      | some d => d :: declarationsBelow s (d.headerLine + 1)
      | none => declarationsBelow s (n + 1) := by
  rw [declarationsBelow, if_pos h]
  split
  · next d hd => rw [hd]
  · next hd => rw [hd]

/-- Skipping the rest of a header line by line is going on below it. -/
theorem declarationsFrom_eq_below (s : Source) {n : Nat} {lines : List Line} (skip : Nat)
    (hlines : n + lines.length = s.lineCount) :
    declarationsFrom s n skip lines = declarationsBelow s (n + skip) := by
  induction lines generalizing n skip with
  | nil =>
      simp only [List.length_nil] at hlines
      rw [declarationsBelow_of_ge (by omega)]
      rfl
  | cons l rest ih =>
      simp only [List.length_cons] at hlines
      have hrest : n + 1 + rest.length = s.lineCount := by omega
      simp only [declarationsFrom]
      split
      · next hskip =>
          rw [ih _ hrest]
          congr 1
          omega
      · next hskip =>
          obtain rfl : skip = 0 := by omega
          rw [Nat.add_zero, declarationsBelow_of_lt (by omega)]
          cases hd : declaration? s n with
          | none => exact ih 0 hrest
          | some d =>
              have hle := le_headerLine hd
              have hnext : n + 1 + (d.headerLine - n) = d.headerLine + 1 := by omega
              simp only
              rw [ih _ hrest, hnext]

/-- The search finds the same declarations when it goes by line numbers. -/
theorem declarations_eq_below (s : Source) : declarations s = declarationsBelow s 0 :=
  declarationsFrom_eq_below s 0 (Nat.zero_add _)

/-! ### Records -/

/-- A record of a text of a version: its place, its name and its version. -/
structure Routine.StandsIn (s : Source) (version : Int32) (r : Routine) : Prop where
  /-- It starts at the first code of its line. -/
  start_first : (s.line? r.span.start.line).bind Line.firstCode? = some r.span.start.column
  /-- Its name is an identifier, and no reserved word. -/
  name_identifier : isIdentifier r.name.toList = true
  name_not_keyword : isKeyword r.name = false
  /-- It ends behind its start, and not behind the text. -/
  start_lt_stop : r.span.start < r.span.stop
  stop_le_end : r.span.stop ≤ s.endPosition
  /-- Both ends are on lines of the text, in columns up to the lengths of these. -/
  start_reached : s.Reaches r.span.start
  stop_reached : s.Reaches r.span.stop
  version_eq : r.version = version

/-- The name of a declaration is an identifier, and no reserved word. -/
theorem declaration?_name {s : Source} {n : Nat} {d : Declaration}
    (h : declaration? s n = some d) :
    isIdentifier d.name.toList = true ∧ isKeyword d.name = false := by
  obtain ⟨listed, tail, hlisted, -, rfl⟩ := declaration?_eq_some_iff.1 h
  obtain ⟨line, -, -, -, hheader, hkeyword, -⟩ := listedHeader?_eq_some hlisted
  exact ⟨Header.read?_identifier hheader, hkeyword⟩

/-- Every record stands in its text. -/
theorem standsIn_of_mem_assemble {s : Source} (hs : s.IsPaired) {version : Int32} {r : Routine}
    (hr : r ∈ assemble s version) : r.StandsIn s version := by
  obtain ⟨d, hd, rfl⟩ := mem_assemble.1 hr
  obtain ⟨hread, -⟩ := mem_declarationsFrom hd
  obtain ⟨hplaced, -⟩ := declaration?_placed hread
  obtain ⟨hidentifier, hkeyword⟩ := declaration?_name hread
  obtain ⟨-, hfirst⟩ := declaration?_start hread
  obtain ⟨hstop, hle⟩ := Body.reaches_stop hs hplaced.body_isAt
  rw [← d.stop_eq] at hstop hle
  obtain ⟨c, hc, -⟩ := hplaced.start_token
  exact {
    start_first := hfirst
    name_identifier := hidentifier
    name_not_keyword := hkeyword
    start_lt_stop := lt_of_lt_of_le hplaced.start_lt hle
    stop_le_end := Source.le_endPosition hstop
    start_reached := Source.reaches_of_mem_spots hc
    stop_reached := hstop
    version_eq := rfl }

/-- The starts of records lie on lines that increase. -/
theorem assemble_lines (s : Source) (version : Int32) :
    (assemble s version).Pairwise fun f g => f.span.start.line < g.span.start.line := by
  rw [assemble_eq, List.pairwise_map]
  refine (declarations_pairwise s).imp_of_mem ?_
  intro d e hd he hlt
  obtain ⟨hread, -⟩ := mem_declarationsFrom hd
  have hle : d.start.line ≤ d.headerLine := le_headerLine hread
  exact lt_of_le_of_lt hle hlt

/-! ### The record at a position -/

/-- There is no innermost record exactly where no record is. -/
theorem routineAt?_eq_none_iff {routines : List Routine} {p : Position} :
    routineAt? routines p = none ↔ ∀ f ∈ routines, f.span.contains p = false := by
  rw [routineAt?, latest?_eq_none_iff, List.filter_eq_nil_iff]
  simp only [Bool.not_eq_true]

/-- Every other record that holds a position starts before the innermost one. -/
theorem start_lt_of_routineAt? {s : Source} {version : Int32} {p : Position} {f g : Routine}
    (hf : routineAt? (assemble s version) p = some f) (hg : g ∈ assemble s version)
    (hp : g.span.contains p = true) (hne : g ≠ f) : g.span.start < f.span.start := by
  obtain ⟨hmem, hmax⟩ := latest?_spec hf
  have hle := hmax g (List.mem_filter.2 ⟨hg, hp⟩)
  rcases lt_or_eq_of_le hle with hlt | heq
  · exact hlt
  · exact absurd (eq_of_start_eq hg (List.mem_filter.1 hmem).1 heq) hne

/--
The search for declarations comes to the end of the text, and the records are what it finds, in its
order: they start on lines that increase, and each stands in the text.  The innermost record at a
position is missing exactly where no record is, and else it holds the position, and every other one
that does so starts before it and is not enclosed by it.
-/
theorem records_in_order (text : List Char) (version : Int32) :
    routinesOf text version =
        (declarationsBelow (Source.scan text) 0).map (recordOf (Source.scan text) version) ∧
      (routinesOf text version).Pairwise (fun f g => f.span.start.line < g.span.start.line) ∧
      (∀ f ∈ routinesOf text version, f.StandsIn (Source.scan text) version) ∧
      ∀ p, (routineAt? (routinesOf text version) p = none ↔
          ∀ f ∈ routinesOf text version, f.span.contains p = false) ∧
        ∀ f, routineAt? (routinesOf text version) p = some f →
          f ∈ routinesOf text version ∧ f.span.contains p = true ∧
            ∀ g ∈ routinesOf text version, g.span.contains p = true → g ≠ f →
              g.span.start < f.span.start ∧ f.span.encloses g.span = false := by
  refine ⟨?_, assemble_lines _ version, ?_, ?_⟩
  · rw [routinesOf, assemble_eq, declarations_eq_below]
  · intro f hf
    exact standsIn_of_mem_assemble (Source.isPaired_scan text) hf
  · intro p
    refine ⟨routineAt?_eq_none_iff, ?_⟩
    intro f hf
    obtain ⟨hmem, -⟩ := latest?_spec hf
    obtain ⟨hrecord, hp⟩ := List.mem_filter.1 hmem
    refine ⟨hrecord, hp, ?_⟩
    intro g hg hgp hne
    have hlt := start_lt_of_routineAt? hf hg hgp hne
    refine ⟨hlt, ?_⟩
    cases hencloses : f.span.encloses g.span with
    | false => rfl
    | true =>
        simp only [Span.encloses, Bool.and_eq_true, decide_eq_true_eq] at hencloses
        exact absurd hencloses.1 (not_le_of_gt hlt)

/-- A function in the body of another one. -/
def nestedFunctions : List Char :=
  "Outer() \x7b\n  Inner() => 1\n\x7d".toList

/-- Both are records, in the order of their starts. -/
theorem nestedFunctions_records :
    (routinesOf nestedFunctions 0).map (fun r => (r.name, r.span)) =
      [("Outer", ⟨⟨0, 0⟩, ⟨2, 1⟩⟩), ("Inner", ⟨⟨1, 2⟩, ⟨1, 14⟩⟩)] := by
  rewrite [routinesOf, assemble_eq]
  decide +kernel

/-- The inner function is not enclosed by a record that is found where both are. -/
theorem records_in_order_nestedFunctions :
    ∃ f ∈ routinesOf nestedFunctions 0, ∃ g ∈ routinesOf nestedFunctions 0,
      f.span.encloses g.span = true ∧ g.span.contains ⟨1, 12⟩ = true ∧
        routineAt? (routinesOf nestedFunctions 0) ⟨1, 12⟩ ≠ some f := by
  obtain ⟨f, rest, hrecords, hf, hrest⟩ := List.map_eq_cons_iff.1 nestedFunctions_records
  obtain ⟨g, _, rfl, hg, -⟩ := List.map_eq_cons_iff.1 hrest
  simp only [Prod.mk.injEq] at hf hg
  have hfmem : f ∈ routinesOf nestedFunctions 0 := by simp [hrecords]
  have hgmem : g ∈ routinesOf nestedFunctions 0 := by simp [hrecords]
  have hencloses : f.span.encloses g.span = true := by rw [hf.2, hg.2]; decide
  have hheld : g.span.contains ⟨1, 12⟩ = true := by rw [hg.2]; decide
  have hne : g ≠ f := by
    intro heq
    rw [heq, hf.2] at hg
    exact absurd hg.2 (by decide)
  refine ⟨f, hfmem, g, hgmem, hencloses, hheld, ?_⟩
  intro hfound
  have hposition := (records_in_order nestedFunctions 0).2.2.2 ⟨1, 12⟩
  have hnot := ((hposition.2 f hfound).2.2 g hgmem hheld hne).2
  exact absurd hencloses (by simp [hnot])

end ScriptOutline
