/-
**Which assigned names are kept.**

A name that the code of a body assigns to is kept if a parameter or a variable of the body has it,
in any case of the letters.  Where the assignment itself is taken up on its line, the name is kept.
Where it is not, as inside of the initializer of a declaration, the name is lost unless a parameter
has it or the body brings it in at another place.

Main definitions:

* `shownFrom` — what a line of a body shows of a run of its cells;
* `Source.Assigns` — the code of a body assigns to a name at a position;
* `IsKept` — a parameter or a variable of a body has a name;
* `nestedAssignments` — a declaration with an assignment inside of its initializer.

Main results:

* `isKept_iff` — the names of a body are those that its lines bring in;
* `Source.Assigns.exists_line` — an assignment of the code stands on the line as it is shown;
* `isKept_iff_of_assigns` — **an assigned name is kept just if its assignment is taken up, or the
  name is a parameter's or comes in at another place**.
-/

import ScriptOutline.Proofs.AssignedNames
import ScriptOutline.Proofs.RedactedParameters

set_option relaxedAutoImplicit false
set_option autoImplicit false

namespace ScriptOutline

/-! ### What a line of a body shows -/

section

variable (body : Span) (excluded : List Span) (number : Nat)

/-- What a line of a body shows of cells that follow one another from a column on. -/
def shownFrom (column : Nat) (cells : List Cell) : List Char :=
  ((cells.map Cell.masked).zipIdx column).map fun (c, column) =>
    if belongsTo body excluded ⟨number, column⟩ then c else ' '

theorem bodyText_eq_shownFrom (l : Line) :
    bodyText body excluded number l = shownFrom body excluded number 0 l.cells := rfl

@[simp] theorem length_shownFrom (column : Nat) (cells : List Cell) :
    (shownFrom body excluded number column cells).length = cells.length := by
  simp [shownFrom]

theorem shownFrom_append (column : Nat) (xs ys : List Cell) :
    shownFrom body excluded number column (xs ++ ys) =
      shownFrom body excluded number column xs ++
        shownFrom body excluded number (column + xs.length) ys := by
  simp only [shownFrom, List.map_append, List.zipIdx_append, List.length_map]

variable {body excluded number}

/-- Cells that all belong to the body are shown, with comments and literals blanked out. -/
theorem shownFrom_of_belongsTo {column : Nat} {cells : List Cell}
    (h : ∀ i < cells.length, belongsTo body excluded ⟨number, column + i⟩ = true) :
    shownFrom body excluded number column cells = cells.map Cell.masked := by
  refine List.ext_getElem (by simp) ?_
  intro i hi hi'
  rw [length_shownFrom] at hi
  simp [shownFrom, h i hi]

/-- The last character that is shown is a blank, or what is left of the last cell. -/
theorem getLast?_shownFrom {column : Nat} {cells : List Cell} {c : Char}
    (h : (shownFrom body excluded number column cells).getLast? = some c) :
    c = ' ' ∨ ∃ cell ∈ cells.getLast?, cell.masked = c := by
  rcases List.eq_nil_or_concat cells with rfl | ⟨init, cell, rfl⟩
  · simp [shownFrom] at h
  · rw [List.concat_eq_append, shownFrom_append, List.getLast?_append] at h
    simp only [shownFrom, List.map_cons, List.map_nil, List.zipIdx_cons, List.zipIdx_nil,
      List.getLast?_singleton, Option.some_or, Option.some.injEq] at h
    split at h
    · exact Or.inr ⟨cell, by simp, h⟩
    · exact Or.inl h.symm

end

/-- What is left of a cell is a blank or its character. -/
theorem Cell.masked_eq (cell : Cell) : cell.masked = ' ' ∨ cell.masked = cell.char := by
  unfold masked
  split
  · exact Or.inr rfl
  · exact Or.inl rfl
  · exact Or.inl rfl
  · split
    · exact Or.inr rfl
    · exact Or.inl rfl

/-- A line that shows more than blanks, and some of it in the body, is one of its lines. -/
theorem mem_bodyLines_of_belongsTo {s : Source} {body : Span} {excluded : List Span}
    {number column : Nat} {l : Line} {c : Char} (hl : s.line? number = some l)
    (hshown : (bodyText body excluded number l)[column]? = some c) (hc : isBlank c = false) :
    ⟨number, bodyText body excluded number l⟩ ∈ bodyLines s body excluded := by
  have hspace : c ≠ ' ' := by
    rintro rfl
    exact absurd hc (by decide)
  -- the position lies in the body, so its line is not above or below it
  have hcontains := (belongsTo_iff.1 (belongsTo_of_bodyText hshown hspace)).1
  rw [Span.contains_iff, Position.le_iff, Position.lt_iff] at hcontains
  have hfirst : body.start.line ≤ number := by
    rcases hcontains.1 with hlt | ⟨heq, -⟩
    · exact Nat.le_of_lt hlt
    · exact Nat.le_of_eq heq
  have hlast : number ≤ body.stop.line := by
    rcases hcontains.2 with hlt | ⟨heq, -⟩
    · exact Nat.le_of_lt hlt
    · exact Nat.le_of_eq heq
  refine List.mem_filter.2 ⟨List.mem_map.2 ⟨(l, number), ?_, rfl⟩, ?_⟩
  · refine List.mem_of_getElem? (i := number - body.start.line) ?_
    have hindex : body.start.line + (number - body.start.line) = number := by omega
    rw [List.getElem?_take_of_lt (by omega), List.getElem?_drop, hindex, List.getElem?_zipIdx]
    unfold Source.line? at hl
    rw [hl, Option.map_some, Nat.zero_add]
  · -- a character that is no blank is left when blanks are taken off
    have hmem := mem_trim (List.mem_of_getElem? hshown) hc
    simp only [Bool.not_eq_true', List.isEmpty_eq_false_iff]
    exact List.ne_nil_of_mem hmem

/-! ### Names of a body -/

/-- The first variable of a name stands for every other one of it. -/
theorem exists_isFirstOf {vars : List Variable} {w : Variable} (h : w ∈ vars) :
    ∃ v : Variable, v.IsFirstOf vars ∧ lowercase v.name = lowercase w.name := by
  induction vars with
  | nil => simp at h
  | cons u rest ih =>
      by_cases hname : lowercase w.name = lowercase u.name
      · exact ⟨u, Variable.isFirstOf_cons_iff.2 (Or.inl rfl), hname.symm⟩
      · rcases List.mem_cons.1 h with rfl | h
        · exact absurd rfl hname
        · obtain ⟨v, hv, heq⟩ := ih h
          exact ⟨v, Variable.isFirstOf_cons_iff.2 (Or.inr ⟨heq ▸ hname, hv⟩), heq⟩

theorem Occurrence.key_eq (o : Occurrence) :
    o.key = lowercase (String.ofList o.mention.name) := rfl

theorem Occurrence.position_eq (o : Occurrence) :
    o.toVariable.position = ⟨o.line.number, o.mention.column⟩ := rfl

/-- A parameter or a variable of a body has a name, in any case of the letters. -/
def IsKept (s : Source) (body : Span) (excluded : List Span) (parameters : List Parameter)
    (name : List Char) : Prop :=
  (∃ q ∈ parameters, lowercase q.name = lowercase (String.ofList name)) ∨
    ∃ v ∈ (findVariables s body excluded parameters).toList,
      lowercase v.name = lowercase (String.ofList name)

/-- The names that are kept are those of parameters and those that the lines of a body bring in. -/
theorem isKept_iff {s : Source} {body : Span} {excluded : List Span}
    {parameters : List Parameter} {name : List Char} :
    IsKept s body excluded parameters name ↔
      (∃ q ∈ parameters, lowercase q.name = lowercase (String.ofList name)) ∨
        ∃ o : Occurrence, o.IsOf (bodyLines s body excluded) ∧
          o.key = lowercase (String.ofList name) := by
  unfold IsKept
  by_cases hparameter : ∃ q ∈ parameters, lowercase q.name = lowercase (String.ofList name)
  · simp only [hparameter, true_or]
  · simp only [hparameter, false_or]
    constructor
    · rintro ⟨v, hv, hkey⟩
      obtain ⟨o, ho, rfl⟩ := exists_occurrence_of_mem_findVariables hv
      exact ⟨o, ho, hkey⟩
    · rintro ⟨o, ho, hkey⟩
      have hmentioned : o.toVariable ∈ mentionedVariables (bodyLines s body excluded) := by
        rw [← occurrences_toVariable]
        exact List.mem_map_of_mem (mem_occurrences.2 ho)
      obtain ⟨v, hfirst, hname⟩ := exists_isFirstOf hmentioned
      have heq : lowercase v.name = lowercase (String.ofList name) := hname.trans hkey
      refine ⟨v, Variables.mem_toList_ofList.2 (mem_firstMentions_iff.2 ⟨?_, hfirst⟩), heq⟩
      intro htaken
      obtain ⟨q, hq, hqname⟩ := List.mem_map.1 htaken
      exact hparameter ⟨q, hq, hqname.trans heq⟩

/-! ### Assignments of the code -/

/--
The code of a body assigns to a whole name at a position: the name, blanks and the assignment mark
lie in the body and outside of the spans that are cut out of it, and no member access, no bracket,
no dereference and no word comes before the name.
-/
def Source.Assigns (s : Source) (body : Span) (excluded : List Span) (name : List Char)
    (p : Position) : Prop :=
  ∃ l before gap after, s.line? p.line = some l ∧
    l.cells = before ++ (name.map (⟨·, .code⟩) ++
      (gap ++ ⟨':', .code⟩ :: ⟨'=', .code⟩ :: after)) ∧
    before.length = p.column ∧ isIdentifier name = true ∧
    (∀ cell ∈ gap, isBlank cell.char = true) ∧
    (∀ cell ∈ before.getLast?, cell.char ≠ '.' ∧ cell.char ≠ ']' ∧ cell.char ≠ '%' ∧
      isWordChar cell.char = false) ∧
    ∀ i < name.length + gap.length + 2,
      body.contains ⟨p.line, p.column + i⟩ = true ∧
        ∀ t ∈ excluded, t.contains ⟨p.line, p.column + i⟩ = false

/-- A name, blanks and the mark are shown as they are, with comments among the blanks left out. -/
theorem shownFrom_assignment {body : Span} {excluded : List Span} {number column : Nat}
    {name : List Char} {gap : List Cell}
    (h : ∀ i < name.length + gap.length + 2,
      belongsTo body excluded ⟨number, column + i⟩ = true) (after : List Cell) :
    shownFrom body excluded number column
        (name.map (⟨·, .code⟩) ++ (gap ++ ⟨':', .code⟩ :: ⟨'=', .code⟩ :: after)) =
      name ++ (gap.map Cell.masked ++ ':' :: '=' ::
        shownFrom body excluded number (column + (name.length + (gap.length + 2))) after) := by
  obtain ⟨cells, hcells⟩ : ∃ cells : List Cell,
      cells = name.map (⟨·, .code⟩) ++ (gap ++ [⟨':', .code⟩, ⟨'=', .code⟩]) := ⟨_, rfl⟩
  have hshown : shownFrom body excluded number column cells = cells.map Cell.masked := by
    refine shownFrom_of_belongsTo fun i hi => h i ?_
    simpa [hcells, Nat.add_assoc] using hi
  have hsplit : name.map (⟨·, .code⟩) ++ (gap ++ ⟨':', .code⟩ :: ⟨'=', .code⟩ :: after) =
      cells ++ after := by
    simp [hcells]
  rw [hsplit, shownFrom_append, hshown, hcells]
  simp [Cell.masked, Function.comp_def]

/-- Blanks are shown as blanks, and so are the comments among them. -/
theorem isBlank_masked {gap : List Cell} (h : ∀ cell ∈ gap, isBlank cell.char = true) :
    ∀ c ∈ gap.map Cell.masked, isBlank c = true := by
  intro c hc
  obtain ⟨cell, hcell, rfl⟩ := List.mem_map.1 hc
  rcases cell.masked_eq with heq | heq
  · rw [heq]
    decide
  · rw [heq]
    exact h cell hcell

/-- What bars no name in the text of a line bars none in what is shown of it. -/
theorem last_shownFrom {body : Span} {excluded : List Span} {number column : Nat}
    {before : List Cell}
    (h : ∀ cell ∈ before.getLast?, cell.char ≠ '.' ∧ cell.char ≠ ']' ∧ cell.char ≠ '%' ∧
      isWordChar cell.char = false) :
    ∀ c ∈ (shownFrom body excluded number column before).getLast?,
      c ≠ '.' ∧ c ≠ ']' ∧ c ≠ '%' ∧ isWordChar c = false := by
  intro c hc
  have hspace : ' ' ≠ '.' ∧ ' ' ≠ ']' ∧ ' ' ≠ '%' ∧ isWordChar ' ' = false := by decide
  rcases getLast?_shownFrom hc with rfl | ⟨cell, hcell, rfl⟩
  · exact hspace
  · rcases cell.masked_eq with heq | heq
    · rw [heq]
      exact hspace
    · rw [heq]
      exact h cell hcell

/-- An assignment of the code stands on its line of the body, as that is shown. -/
theorem Source.Assigns.exists_line {s : Source} {body : Span} {excluded : List Span}
    {name : List Char} {p : Position} (h : s.Assigns body excluded name p) :
    ∃ l, s.line? p.line = some l ∧
      ⟨p.line, bodyText body excluded p.line l⟩ ∈ bodyLines s body excluded ∧
      AssignsAt (bodyText body excluded p.line l) name p.column ∧
      IsFreeBefore (bodyText body excluded p.line l) p.column := by
  obtain ⟨l, before, gap, after, hl, hcells, hlength, hname, hgap, hbefore, hbelongs⟩ := h
  obtain ⟨front, hfront⟩ : ∃ front, front = shownFrom body excluded p.line 0 before := ⟨_, rfl⟩
  obtain ⟨rest, htext⟩ : ∃ rest, bodyText body excluded p.line l =
      front ++ (name ++ (gap.map Cell.masked ++ ':' :: '=' :: rest)) := by
    have hassign := shownFrom_assignment (fun i hi => belongsTo_iff.2 (hbelongs i hi)) after
    rw [bodyText_eq_shownFrom, hcells, shownFrom_append, Nat.zero_add, hlength, ← hfront, hassign]
    exact ⟨_, rfl⟩
  have hcolumn : front.length = p.column := by rw [hfront, length_shownFrom, hlength]
  have hlast : ∀ c ∈ front.getLast?, c ≠ '.' ∧ c ≠ ']' ∧ c ≠ '%' ∧ isWordChar c = false := by
    rw [hfront]
    exact last_shownFrom hbefore
  refine ⟨l, hl, ?_, ?_, ?_⟩
  · obtain ⟨c, tail, rfl, hc, -⟩ := exists_cons_of_isIdentifier hname
    have hshown : (bodyText body excluded p.line l)[p.column]? = some c := by
      rw [htext, List.getElem?_append_right (Nat.le_of_eq hcolumn), hcolumn, Nat.sub_self]
      rfl
    exact mem_bodyLines_of_belongsTo hl hshown
      (not_isBlank_of_isWordChar (isWordChar_of_isIdentifierStart hc))
  · exact ⟨front, _, rest, htext, hcolumn, hname, isBlank_masked hgap, fun c hc => (hlast c hc).2.2.2⟩
  · intro c hc
    rw [htext, List.take_left' hcolumn] at hc
    exact hlast c hc

/-- What comes in on a line of a body is taken up there. -/
theorem Occurrence.IsOf.isTakenUp {s : Source} {body : Span} {excluded : List Span}
    {o : Occurrence} (h : o.IsOf (bodyLines s body excluded)) {l : Line}
    (hl : s.line? o.line.number = some l)
    (hfree : IsFreeBefore (bodyText body excluded o.line.number l) o.mention.column) :
    IsTakenUp (bodyText body excluded o.line.number l) o.mention.column := by
  obtain ⟨hline, hway⟩ := h
  obtain ⟨l', hl', htext⟩ := mem_bodyLines hline
  obtain rfl : l' = l := Option.some.inj (hl'.symm.trans hl)
  rw [← htext] at hfree ⊢
  exact isTakenUp_of_isOf ⟨List.mem_singleton_self o.line, hway⟩ hfree

/--
**Which assigned names are kept.**  A name that the code of a body assigns to is kept just if the
assignment is taken up on its line, or a parameter has the name, or the body brings the name in at
another place.  Whether the name is a keyword does not matter.
-/
theorem isKept_iff_of_assigns {s : Source} {body : Span} {excluded : List Span}
    {parameters : List Parameter} {name : List Char} {p : Position}
    (h : s.Assigns body excluded name p) :
    IsKept s body excluded parameters name ↔
      (∃ l, s.line? p.line = some l ∧ IsTakenUp (bodyText body excluded p.line l) p.column) ∨
        (∃ q ∈ parameters, lowercase q.name = lowercase (String.ofList name)) ∨
          ∃ o : Occurrence, o.IsOf (bodyLines s body excluded) ∧
            o.key = lowercase (String.ofList name) ∧ o.toVariable.position ≠ p := by
  obtain ⟨l, hl, hmem, hassigns, hfree⟩ := h.exists_line
  rw [isKept_iff]
  constructor
  · rintro (hparameter | ⟨o, ho, hkey⟩)
    · exact Or.inr (Or.inl hparameter)
    · by_cases hposition : o.toVariable.position = p
      · rw [o.position_eq] at hposition
        subst hposition
        exact Or.inl ⟨l, hl, ho.isTakenUp hl hfree⟩
      · exact Or.inr (Or.inr ⟨o, ho, hkey, hposition⟩)
  · rintro (⟨l', hl', htaken⟩ | hparameter | ⟨o, ho, hkey, -⟩)
    · obtain rfl : l' = l := Option.some.inj (hl'.symm.trans hl)
      obtain ⟨o, ho, hname, -⟩ := exists_occurrence_of_isTakenUp
        (b := ⟨p.line, bodyText body excluded p.line l'⟩) hassigns hfree htaken
      refine Or.inr ⟨o, ⟨?_, ho.2⟩, ?_⟩
      · rw [List.mem_singleton.1 ho.1]
        exact hmem
      · rw [o.key_eq, hname]
    · exact Or.inl hparameter
    · exact Or.inr ⟨o, ho, hkey⟩

/-- A declaration with an assignment inside of its first initializer, and a chain. -/
def nestedAssignments : Source :=
  Source.scan "static a := (b := 1), c := d := 2".toList

/-- All of that text. -/
def nestedAssignmentsSpan : Span :=
  ⟨⟨0, 0⟩, ⟨0, 33⟩⟩

theorem nestedAssignments_line :
    nestedAssignments.line? 0 =
      some ⟨"static a := (b := 1), c := d := 2".toList.map (⟨·, .code⟩), 0⟩ := by
  decide +kernel

/-- The last name of the chain is kept, since only links lead to it from the comma. -/
theorem isKept_iff_of_assigns_nestedAssignments :
    nestedAssignments.Assigns nestedAssignmentsSpan [] ['d'] ⟨0, 27⟩ ∧
      IsKept nestedAssignments nestedAssignmentsSpan [] [] ['d'] := by
  have hassigns : nestedAssignments.Assigns nestedAssignmentsSpan [] ['d'] ⟨0, 27⟩ := by
    refine ⟨_, "static a := (b := 1), c := ".toList.map (⟨·, .code⟩), [⟨' ', .code⟩],
      " 2".toList.map (⟨·, .code⟩), nestedAssignments_line, by decide +kernel, by decide +kernel,
      by decide, by decide, ?_, by decide⟩
    rintro cell ⟨⟩
    decide
  refine ⟨hassigns, (isKept_iff_of_assigns hassigns).2 (Or.inl ⟨_, nestedAssignments_line, ?_⟩)⟩
  have hshown : bodyText nestedAssignmentsSpan [] 0
      ⟨"static a := (b := 1), c := d := 2".toList.map (⟨·, .code⟩), 0⟩ =
        "static a := (b := 1), c := d := 2".toList := by
    decide +kernel
  rw [hshown]
  let l : Link := ⟨[' '], ['c'], [' '], isBlank_of_mem_space, by decide, isBlank_of_mem_space⟩
  exact Or.inl ⟨.static, "a := (b := 1), c := d := 2".toList, "a := (b := 1),".toList, [' '],
    "d := 2".toList, [l], by decide +kernel, by decide,
    Or.inr ⟨"a := (b := 1)".toList, by decide, by decide⟩, isBlank_of_mem_space, by decide⟩

/-- The name inside of the initializer is lost, though it is no keyword and nothing bars it. -/
theorem nestedAssignments_loses :
    nestedAssignments.Assigns nestedAssignmentsSpan [] ['b'] ⟨0, 13⟩ ∧
      isKeyword (String.ofList ['b']) = false ∧
        ¬IsKept nestedAssignments nestedAssignmentsSpan [] [] ['b'] := by
  refine ⟨⟨_, "static a := (".toList.map (⟨·, .code⟩), [⟨' ', .code⟩],
    " 1), c := d := 2".toList.map (⟨·, .code⟩), nestedAssignments_line,
    by decide +kernel, by decide +kernel, by decide, by decide, ?_, by decide⟩,
    by decide +kernel, ?_⟩
  · rintro cell ⟨⟩
    decide
  · unfold IsKept
    decide +kernel

end ScriptOutline
