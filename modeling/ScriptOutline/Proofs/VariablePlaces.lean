/-
**Variables stand where they are reported.**

A line of a body shows a character of the text only where it is code of the body, where it is a
quote, or where it is a blank.  A name is made of word characters, and no quote and no blank is one,
so that the name of a variable is found letter by letter in the code of the body, from the place on
that is reported with it.

Main definitions:

* `Source.Names` — the code of a body holds a name from a position on;
* `accentedBody` — a body with accents, a comment and a literal in front of its names.

Main results:

* `code_of_bodyText` — a word character that a line of a body shows is code of the body;
* `names_of_mem_findVariables` — **variables stand where they are reported**.
-/

import ScriptOutline.Proofs.VariableRanking

set_option relaxedAutoImplicit false
set_option autoImplicit false

namespace ScriptOutline

/-! ### Characters that are shown -/

/-- A word character that is left of a cell without comments and literals is code. -/
theorem Cell.eq_code_of_masked {cell : Cell} {c : Char} (h : cell.masked = c)
    (hc : isWordChar c = true) : cell = ⟨c, .code⟩ := by
  obtain ⟨char, region⟩ := cell
  cases region with
  | code =>
      simp only [masked] at h
      rw [h]
  | lineComment | blockComment =>
      simp only [masked] at h
      rw [← h] at hc
      exact absurd hc (by decide)
  | literal quote =>
      simp only [masked] at h
      split at h
      · next hquote =>
          rw [← h, hquote] at hc
          cases quote with
          | single => exact absurd hc (by decide)
          | double => exact absurd hc (by decide)
      · rw [← h] at hc
        exact absurd hc (by decide)

theorem ne_space_of_isWordChar {c : Char} (hc : isWordChar c = true) : c ≠ ' ' := by
  rintro rfl
  exact absurd hc (by decide)

/-- A line of a body shows what is left of its cells, or blanks. -/
theorem masked_of_bodyText {body : Span} {excluded : List Span} {number column : Nat} {l : Line}
    {c : Char} (h : (bodyText body excluded number l)[column]? = some c) (hc : c ≠ ' ') :
    ∃ cell, l.cells[column]? = some cell ∧ cell.masked = c := by
  simp only [bodyText, List.getElem?_map, List.getElem?_zipIdx, Option.map_map,
    Option.map_eq_some_iff, Function.comp_apply, Nat.zero_add, Line.maskedText] at h
  obtain ⟨cell, hcell, hshown⟩ := h
  split at hshown
  · exact ⟨cell, hcell, hshown⟩
  · exact absurd hshown.symm hc

/-- A word character that a line of a body shows is code of the body. -/
theorem code_of_bodyText {body : Span} {excluded : List Span} {number column : Nat} {l : Line}
    {c : Char} (h : (bodyText body excluded number l)[column]? = some c)
    (hc : isWordChar c = true) :
    l.cells[column]? = some ⟨c, .code⟩ ∧ belongsTo body excluded ⟨number, column⟩ = true := by
  have hblank := ne_space_of_isWordChar hc
  obtain ⟨cell, hcell, hmasked⟩ := masked_of_bodyText h hblank
  rw [Cell.eq_code_of_masked hmasked hc] at hcell
  exact ⟨hcell, belongsTo_of_bodyText h hblank⟩

/-! ### Names and their places -/

/-- The characters of a piece follow one another from its column on. -/
theorem StandsAt.getElem? {cs piece : List Char} {column i : Nat} {c : Char}
    (h : StandsAt 0 cs piece column) (hi : piece[i]? = some c) : cs[column + i]? = some c := by
  obtain ⟨before, after, rfl, rfl⟩ := h
  have hlt : i < piece.length := (List.getElem?_eq_some_iff.1 hi).1
  rw [Nat.zero_add, List.append_assoc, List.getElem?_append_right (Nat.le_add_right _ _),
    Nat.add_sub_cancel_left, List.getElem?_append_left hlt, hi]

/-- Every occurrence is of an identifier that stands at its column of its line. -/
theorem Occurrence.IsOf.isOn {o : Occurrence} {lines : List BodyLine} (h : o.IsOf lines) :
    o.mention.IsOn o.line.text := by
  obtain ⟨way, line, mention⟩ := o
  obtain ⟨-, hway⟩ := h
  have himplied (hm : mention ∈ impliedOn line.text) : mention.IsOn line.text :=
    isOn_of_mem_impliedOn hm
  simp only [impliedOn, List.mem_append] at himplied
  cases way with
  | declared scope =>
      obtain ⟨mentions, hdeclared, hm⟩ := hway
      exact isOn_of_mem_declaredOn? hdeclared hm
  | loop => exact himplied (Or.inl (Or.inl hway.2))
  | caught => exact himplied (Or.inl (Or.inr hway.2))
  | assigned => exact himplied (Or.inr hway.2)

/-- Every variable that is reported comes from an occurrence in its body. -/
theorem exists_occurrence_of_mem_findVariables {s : Source} {body : Span} {excluded : List Span}
    {parameters : List Parameter} {v : Variable}
    (h : v ∈ (findVariables s body excluded parameters).toList) :
    ∃ o : Occurrence, o.IsOf (bodyLines s body excluded) ∧ o.toVariable = v := by
  have hmentioned := mem_of_mem_firstMentions (Variables.mem_of_mem_toList_ofList h)
  rw [← occurrences_toVariable] at hmentioned
  obtain ⟨o, ho, hv⟩ := List.mem_map.1 hmentioned
  exact ⟨o, mem_occurrences.1 ho, hv⟩

/--
The code of a body holds a name from a position on: each of its characters stands there as live
code, inside the body and outside of the spans that are cut out of it.
-/
def Source.Names (s : Source) (body : Span) (excluded : List Span) (name : List Char)
    (p : Position) : Prop :=
  ∃ l, s.line? p.line = some l ∧ ∀ i c, name[i]? = some c →
    l.cells[p.column + i]? = some ⟨c, .code⟩ ∧
      body.contains ⟨p.line, p.column + i⟩ = true ∧
      ∀ t ∈ excluded, t.contains ⟨p.line, p.column + i⟩ = false

theorem belongsTo_iff {body : Span} {excluded : List Span} {p : Position} :
    belongsTo body excluded p = true ↔
      body.contains p = true ∧ ∀ t ∈ excluded, t.contains p = false := by
  simp [belongsTo]

/-- An identifier that stands on a line of a body is code of the body. -/
theorem names_of_isOn {s : Source} {body : Span} {excluded : List Span} {b : BodyLine}
    (hb : b ∈ bodyLines s body excluded) {m : Mention} (hm : m.IsOn b.text) :
    s.Names body excluded m.name ⟨b.number, m.column⟩ := by
  obtain ⟨hname, hstands⟩ := hm
  obtain ⟨l, hl, htext⟩ := mem_bodyLines hb
  refine ⟨l, hl, ?_⟩
  intro i c hi
  have hword : isWordChar c = true := isWordChar_of_mem hname (List.mem_of_getElem? hi)
  have hshown := hstands.getElem? hi
  rw [htext] at hshown
  obtain ⟨hcell, hbelongs⟩ := code_of_bodyText hshown hword
  exact ⟨hcell, belongsTo_iff.1 hbelongs⟩

/--
**Variables stand where they are reported.**  Every variable of a body is called by an identifier,
and the code of the body holds it from the position of the variable on.
-/
theorem names_of_mem_findVariables (s : Source) (body : Span) (excluded : List Span)
    (parameters : List Parameter) :
    ∀ v ∈ (findVariables s body excluded parameters).toList,
      isIdentifier v.name.toList = true ∧ s.Names body excluded v.name.toList v.position := by
  intro v hv
  obtain ⟨o, ho, rfl⟩ := exists_occurrence_of_mem_findVariables hv
  have hname : o.toVariable.name.toList = o.mention.name := String.toList_ofList
  rw [hname]
  exact ⟨ho.isOn.1, names_of_isOn ho.1 ho.isOn⟩

/-- A body with accents, a comment and a literal in front of its names. -/
def accentedBody : Source :=
  Source.scan "static été := \"ü\" . 1, /* é */ a := größe := 2\nF() => x := 1, ç := 3".toList

/-- The last name of a chain behind a comment, with a function cut out of the line below. -/
theorem names_of_mem_findVariables_accentedBody :
    ⟨"größe", .static, true, ⟨0, 36⟩, some "Integer"⟩ ∈
        (findVariables accentedBody ⟨⟨0, 0⟩, ⟨1, 21⟩⟩ [⟨⟨1, 0⟩, ⟨1, 13⟩⟩] []).toList ∧
      accentedBody.Names ⟨⟨0, 0⟩, ⟨1, 21⟩⟩ [⟨⟨1, 0⟩, ⟨1, 13⟩⟩] "größe".toList ⟨0, 36⟩ := by
  have hmem : ⟨"größe", .static, true, ⟨0, 36⟩, some "Integer"⟩ ∈
      (findVariables accentedBody ⟨⟨0, 0⟩, ⟨1, 21⟩⟩ [⟨⟨1, 0⟩, ⟨1, 13⟩⟩] []).toList := by
    decide +kernel
  exact ⟨hmem, (names_of_mem_findVariables _ _ _ _ _ hmem).2⟩

end ScriptOutline
