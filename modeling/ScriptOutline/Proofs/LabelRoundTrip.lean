/-
**A label can be read again.**

The label of a parameter is written in one way, whatever the segment looked like that the parameter
was read from: blanks and markers stand in fixed places, and a default value follows `:=`.  Reading
the label gives the parameter back, but for a collector that was marked as optional too, since the
label only says that it collects.  What makes a label legible is said once, of the parameter alone:
every parameter that is read is legible, and the label of a legible parameter is read as it.

Main definitions:

* `IsHint` — what can stand as a type hint;
* `Parameter.IsLegible` — what makes the label of a parameter legible;
* `Parameter.declaredText` — the name and the type hint of a parameter, as they are written;
* `wideSegment` — a segment with a hint that looks like a default value.

Main results:

* `Parameter.isLegible_of_read` — every parameter that is read is legible;
* `Parameter.read_label_of_isLegible` — the label of a legible parameter is read as it;
* `read_label` — **the label of a parameter is read as the parameter**.
-/

import ScriptOutline.Proofs.MentionColumns
import ScriptOutline.Proofs.ParameterParts

set_option relaxedAutoImplicit false
set_option autoImplicit false

namespace ScriptOutline

/-! ### What is read of a segment -/

theorem splitEquals?_eq_some {before : Option Char} {cs left right : List Char}
    (h : splitEquals? before cs = some (left, right)) : cs = left ++ '=' :: right := by
  induction cs generalizing before left with
  | nil => simp [splitEquals?] at h
  | cons c cs ih =>
      simp only [splitEquals?] at h
      split at h
      · simp at h
      · split at h
        · next hequals =>
            simp only [Bool.and_eq_true, decide_eq_true_eq] at hequals
            simp only [Option.some.injEq, Prod.mk.injEq] at h
            rw [← h.1, ← h.2, hequals.1]
            rfl
        · obtain ⟨⟨inner, rest⟩, hrest, heq⟩ := Option.map_eq_some_iff.1 h
          obtain ⟨rfl, rfl⟩ := Prod.mk.inj heq
          rw [ih hrest]
          rfl

theorem splitColon?_eq_some {cs left right : List Char} (h : splitColon? cs = some (left, right)) :
    cs = left ++ ':' :: right := by
  induction cs generalizing left with
  | nil => simp [splitColon?] at h
  | cons c cs ih =>
      simp only [splitColon?] at h
      split at h
      · next hc =>
          simp only [Option.some.injEq, Prod.mk.injEq] at h
          rw [← h.1, ← h.2, hc]
          rfl
      · obtain ⟨⟨inner, rest⟩, hrest, heq⟩ := Option.map_eq_some_iff.1 h
        obtain ⟨rfl, rfl⟩ := Prod.mk.inj heq
        rw [ih hrest]
        rfl

/-- What stands before a default value has no mark, and no plain equals sign without a value. -/
theorem splitDefault_spec {cs front : List Char} {text : Option (List Char)}
    (h : splitDefault cs = (front, text)) :
    (¬[':', '='] <:+: front) ∧ (∀ value ∈ text, IsTrimmed value) ∧
      (text = none → front = cs ∧ splitEquals? none cs = none) := by
  unfold splitDefault at h
  split at h
  · next declared value hassign =>
      obtain ⟨rfl, rfl⟩ := Prod.mk.inj h
      refine ⟨(splitAssign?_eq_some hassign).2, ?_, by simp⟩
      rintro v ⟨⟩
      exact isTrimmed_trim value
  · next hassign =>
      have hunmarked := splitAssign?_eq_none_iff.1 hassign
      split at h
      · next declared value hequals =>
          obtain ⟨rfl, rfl⟩ := Prod.mk.inj h
          refine ⟨?_, ?_, by simp⟩
          · intro hmark
            refine hunmarked (hmark.trans ?_)
            rw [splitEquals?_eq_some hequals]
            exact (List.prefix_append _ _).isInfix
          · rintro v ⟨⟩
            exact isTrimmed_trim value
      · next hequals =>
          obtain ⟨rfl, rfl⟩ := Prod.mk.inj h
          exact ⟨hunmarked, by simp, fun _ => ⟨rfl, hequals⟩⟩

/-- A type hint stands behind a colon and blanks, and only the name and blanks or markers before. -/
theorem exists_of_readDeclared {position : Nat} {cs name hint : List Char} {markers : Markers}
    (h : readDeclared position cs = .ok (name, some hint, markers)) :
    ∃ before blanks tail, cs = before ++ ':' :: (blanks ++ (hint ++ tail)) ∧
      (∀ c ∈ before, c ∈ name ∨ isTight c = false) ∧ (∀ c ∈ blanks, isBlank c = true) ∧
      (∀ c ∈ tail, isTight c = false) ∧ ∀ c ∈ hint.getLast?, isTight c = true := by
  obtain ⟨tail, hcs, htail, hlast⟩ := stripMarkers_spec cs
  unfold readDeclared at h
  generalize stripMarkers cs = stripped at h hcs hlast
  obtain ⟨declared, outer⟩ := stripped
  simp only at h hcs hlast
  split at h
  · simp at h
  · next before after hcolon =>
      split at h
      · simp at h
      · next hempty =>
          simp only [Except.ok.injEq, Prod.mk.injEq, Option.some.injEq] at h
          obtain ⟨hname, hhint, -⟩ := h
          have hafter : after ≠ [] := by
            rintro rfl
            exact hempty rfl
          have hdeclared := splitColon?_eq_some hcolon
          have htight : ∀ c ∈ after.getLast?, isTight c = true := by
            intro c hc
            refine hlast c ?_
            rw [hdeclared, List.getLast?_append, List.getLast?_cons_of_ne_nil hafter, hc]
            rfl
          obtain ⟨blanks, hblanks, hall⟩ :=
            exists_blanks_of_last fun c hc => not_isBlank_of_isTight (htight c hc)
          rw [hhint] at hblanks
          refine ⟨before, blanks, tail, ?_, ?_, hall, htail, ?_⟩
          · rw [hcs, hdeclared, hblanks]
            simp
          · -- what is taken off the name is a blank or a marker
            obtain ⟨loose, hbefore, hloose, -⟩ := stripMarkers_spec before
            intro c hc
            rw [hbefore, List.mem_append] at hc
            rcases hc with hc | hc
            · rw [← hname]
              exact (isBlank_or_mem_trim hc).symm.imp_right fun hblank => by simp [isTight, hblank]
            · exact Or.inr (hloose c hc)
          · intro c hc
            refine htight c ?_
            rw [hblanks, List.getLast?_append, hc]
            rfl

/-! ### Legible parameters -/

/-- A text can stand as a type hint: it is trimmed, ends in no marker and has no mark. -/
structure IsHint (cs : List Char) : Prop where
  ne_nil : cs ≠ []
  trimmed : IsTrimmed cs
  tight : ∀ c ∈ cs.getLast?, isTight c = true
  unmarked : ¬[':', '='] <:+: cs

/-- What makes the label of a parameter legible. -/
structure Parameter.IsLegible (p : Parameter) : Prop where
  name_identifier : isIdentifier p.name.toList = true ∨ p.name = anonymous ∧ p.variadic = true
  hint : ∀ hint ∈ p.typeHint, IsHint hint.toList
  /-- Without a default value no equals sign of the hint can be taken for the mark of one. -/
  hint_unassigned : p.defaultValue = none → ∀ hint ∈ p.typeHint,
    splitEquals? (some ' ') hint.toList = none
  /-- A default value is what its text stands for, and makes the parameter optional. -/
  value : ∀ value ∈ p.defaultValue, value.text.toList ≠ [] ∧ IsTrimmed value.text.toList ∧
    DefaultValue.ofText value.text.toList = value ∧ p.optional = true ∧ p.variadic = false

/-- A default value that is read is what its text stands for. -/
theorem readDefault_text {name : String} {variadic : Bool} {text : Option (List Char)}
    {value : Option DefaultValue} (h : readDefault name variadic text = .ok value)
    (htext : ∀ cs ∈ text, IsTrimmed cs) {v : DefaultValue} (hv : v ∈ value) :
    v.text.toList ≠ [] ∧ IsTrimmed v.text.toList ∧ DefaultValue.ofText v.text.toList = v := by
  cases text with
  | none =>
      simp only [readDefault, Except.ok.injEq] at h
      rw [← h] at hv
      simp at hv
  | some cs =>
      have htrimmed := htext cs rfl
      simp only [readDefault] at h
      split at h
      · simp at h
      · next hne =>
          split at h
          · simp at h
          · simp only [Except.ok.injEq] at h
            rw [← h, Option.mem_def, Option.some.injEq] at hv
            have htoList : v.text.toList = cs := by
              rw [← hv, DefaultValue.ofText, String.toList_ofList, trim_of_isTrimmed htrimmed]
            rw [htoList]
            exact ⟨by simpa using hne, htrimmed, hv⟩

theorem readDefault_eq_none {name : String} {variadic : Bool} {text : Option (List Char)}
    (h : readDefault name variadic text = .ok none) : text = none := by
  cases text with
  | none => rfl
  | some cs =>
      simp only [readDefault] at h
      split at h
      · simp at h
      · split at h
        · simp at h
        · simp at h

/-- A name that is read is the text of it, which is empty for a collector without a name. -/
theorem readName_text {name : List Char} {variadic : Bool} {read : String}
    (h : readName name variadic = .ok read) : name = [] ∨ isIdentifier name = true := by
  unfold readName at h
  split at h
  · next hempty =>
      simp only [Bool.and_eq_true, List.isEmpty_iff] at hempty
      exact Or.inl hempty.1
  · split at h
    · next hidentifier => exact Or.inr hidentifier
    · simp at h

theorem isTight_eq_false_of_isBlank {c : Char} (h : isBlank c = true) : isTight c = false := by
  simp [isTight, h]

theorem isTight_of_isWordChar {c : Char} (h : isWordChar c = true) : isTight c = true := by
  simp only [isTight, not_isBlank_of_isWordChar h, Bool.not_false, Bool.true_and,
    Bool.and_eq_true, decide_eq_true_eq]
  constructor
  · rintro rfl
    exact absurd h (by decide +kernel)
  · rintro rfl
    exact absurd h (by decide +kernel)

/-- What stands before a type hint is neither an equals sign nor a quote. -/
theorem plain_before_hint {c : Char}
    (h : c = '&' ∨ c = ':' ∨ isTight c = false ∨ isWordChar c = true) :
    c ≠ '=' ∧ isQuoteMark c = false := by
  constructor
  · rintro rfl
    exact absurd h (by decide +kernel)
  · cases hquote : isQuoteMark c with
    | false => rfl
    | true =>
        simp only [isQuoteMark, Bool.or_eq_true, decide_eq_true_eq] at hquote
        rcases hquote with rfl | rfl
        · exact absurd h (by decide +kernel)
        · exact absurd h (by decide +kernel)

/-- Where a whole text has no plain equals sign, the hint in it has none behind a blank. -/
theorem splitEquals?_hint {front blanks hint tail : List Char}
    (hfront : ∀ c ∈ front, c = '&' ∨ isTight c = false ∨ isWordChar c = true)
    (hblanks : ∀ c ∈ blanks, isBlank c = true) (htail : ∀ c ∈ tail, isTight c = false)
    (hunmarked : ¬[':', '='] <:+: front ++ ':' :: (blanks ++ (hint ++ tail)))
    (h : splitEquals? none (front ++ ':' :: (blanks ++ (hint ++ tail))) = none) :
    splitEquals? (some ' ') hint = none := by
  have hplain : ∀ c ∈ front ++ ':' :: blanks, c ≠ '=' ∧ isQuoteMark c = false := by
    intro c hc
    refine plain_before_hint ?_
    rcases List.mem_append.1 hc with hc | hc
    · exact (hfront c hc).imp_right Or.inr
    · rcases List.mem_cons.1 hc with rfl | hc
      · exact Or.inr (Or.inl rfl)
      · exact Or.inr (Or.inr (Or.inl (isTight_eq_false_of_isBlank (hblanks c hc))))
  have htail' : ∀ c ∈ tail, c ≠ '=' ∧ c ≠ '>' := by
    intro c hc
    have hloose := htail c hc
    constructor
    · rintro rfl
      exact absurd hloose (by decide)
    · rintro rfl
      exact absurd hloose (by decide)
  have hsplit : front ++ ':' :: (blanks ++ (hint ++ tail)) =
      front ++ ':' :: blanks ++ (hint ++ tail) := by simp
  rw [hsplit, splitEquals?_plain_append_iff (fun hmem => (hplain _ hmem).1 rfl)
    (fun c hc => (hplain c hc).2), splitEquals?_append_iff htail'] at h
  rcases List.eq_nil_or_concat blanks with rfl | ⟨init, b, rfl⟩
  · -- directly behind the colon an equals sign would make a mark
    rw [← h]
    refine splitEquals?_of_head ?_ _ _
    rintro c hc rfl
    obtain ⟨rest, rfl⟩ := List.head?_eq_some_iff.1 hc
    exact hunmarked ⟨front, rest ++ tail, by simp⟩
  · have hlast : (front ++ ':' :: (init.concat b)).getLast?.or none = some b := by
      simp [List.getLast?_append, List.getLast?_cons]
    rw [hlast] at h
    rwa [splitEquals?_of_isBlank (hblanks b (by simp))] at h

/-- Every parameter that is read is legible. -/
theorem Parameter.isLegible_of_read {position : Nat} {segment : List Char} {p : Parameter}
    (h : Parameter.read position segment = .ok p) : p.IsLegible := by
  have hfits := Parameter.read_fits h
  obtain ⟨-, front, text, declared, reference, name, hint, markers, read, value, hsplit, hreference,
    hdeclared, hname, hvalue, rfl⟩ := Parameter.read_eq_ok_iff.1 h
  obtain ⟨hunmarked, htext, hwhole⟩ := splitDefault_spec hsplit
  obtain ⟨lead, hlead, hleadChars⟩ := stripReference_spec (trim front)
  rw [hreference] at hlead
  refine ⟨hfits.name_identifier, ?_, ?_, ?_⟩
  · intro found hfound
    obtain ⟨hne, htrimmed⟩ := hfits.hint_trimmed found hfound
    obtain ⟨cs, rfl, rfl⟩ := Option.map_eq_some_iff.1 hfound
    obtain ⟨before, blanks, tail, hcs, -, -, -, htight⟩ := exists_of_readDeclared hdeclared
    rw [String.toList_ofList] at hne htrimmed ⊢
    refine ⟨hne, htrimmed, htight, fun hmark => hunmarked ?_⟩
    have hin : cs <:+: trim front := by
      rw [hlead, hcs]
      exact ⟨lead ++ (before ++ ':' :: blanks), tail, by simp⟩
    exact hmark.trans (hin.trans
      ((trimEnd_isPrefix _).isInfix.trans (trimStart_suffix front).isInfix))
  · intro hnone found hfound
    obtain ⟨cs, rfl, rfl⟩ := Option.map_eq_some_iff.1 hfound
    obtain ⟨before, blanks, tail, hcs, hbefore, hblanks, htail, -⟩ :=
      exists_of_readDeclared hdeclared
    obtain rfl : value = none := hnone
    obtain ⟨rfl, hequals⟩ := hwhole (readDefault_eq_none hvalue)
    have hsegment : trim segment = (lead ++ before) ++ ':' :: (blanks ++ (cs ++ tail)) := by
      rw [← trim_of_isTrimmed (isTrimmed_trim segment), hlead, hcs, List.append_assoc]
    rw [String.toList_ofList]
    rw [hsegment] at hequals hunmarked
    refine splitEquals?_hint ?_ hblanks htail hunmarked hequals
    intro c hc
    rcases List.mem_append.1 hc with hc | hc
    · exact (hleadChars c hc).imp_right fun hblank => Or.inl (isTight_eq_false_of_isBlank hblank)
    · rcases hbefore c hc with hmem | hloose
      · rcases readName_text hname with rfl | hidentifier
        · simp at hmem
        · exact Or.inr (Or.inr (isWordChar_of_mem hidentifier hmem))
      · exact Or.inr (Or.inl hloose)
  · intro v hv
    obtain ⟨hne, htrimmed, hof⟩ := readDefault_text hvalue htext hv
    exact ⟨hne, htrimmed, hof, hfits.optional_of_default (Option.isSome_iff_exists.2 ⟨v, hv⟩)⟩

/-! ### What is written of a parameter -/

/-- An ampersand or nothing. -/
def referenceText (reference : Bool) : List Char :=
  if reference then ['&'] else []

/-- An ampersand is taken off a text that starts with neither a blank nor another one. -/
theorem stripReference_append (reference : Bool) {cs : List Char}
    (h : ∀ c ∈ cs.head?, isBlank c = false ∧ c ≠ '&') :
    stripReference (referenceText reference ++ cs) = (cs, reference) := by
  cases reference with
  | true =>
      have htrim := trimStart_of_head fun c hc => (h c hc).1
      simp [referenceText, stripReference, htrim]
  | false =>
      cases cs with
      | nil => rfl
      | cons c cs => simp [referenceText, stripReference, (h c rfl).2]

theorem isTrimmed_referenceText_append (reference : Bool) {cs : List Char} (h : IsTrimmed cs) :
    IsTrimmed (referenceText reference ++ cs) := by
  cases reference with
  | false => exact h
  | true =>
      have hampersand : isBlank '&' = false := by decide
      refine ⟨by simpa [referenceText] using hampersand, ?_⟩
      intro c hc
      cases hlast : cs.getLast? with
      | none =>
          simp [referenceText, List.getLast?_cons, hlast] at hc
          rwa [← hc]
      | some d =>
          simp [referenceText, List.getLast?_cons, hlast] at hc
          rw [← hc]
          exact h.2 d hlast

namespace Parameter

/-- The name of a parameter as it is written: nothing for a collector without a name. -/
def writtenName (p : Parameter) : List Char :=
  if p.name = anonymous then [] else p.name.toList

/-- The name and the type hint of a parameter, as they are written. -/
def declaredText (p : Parameter) : List Char :=
  p.writtenName ++
    match p.typeHint with
    | some hint => ':' :: ' ' :: hint.toList
    | none => []

theorem label_toList (p : Parameter) :
    p.label.toList = referenceText p.byReference ++ (p.declaredText ++ p.suffix.toList) := by
  unfold label declaredText writtenName referenceText
  cases p.byReference <;> cases p.typeHint <;> by_cases hname : p.name = anonymous <;>
    simp [hname]

namespace IsLegible

variable {p : Parameter} (h : p.IsLegible)

include h

/-- The name is empty, and the parameter collects, or it is an identifier. -/
theorem writtenName_cases :
    p.writtenName = [] ∧ p.name = anonymous ∧ p.variadic = true ∨
      isIdentifier p.writtenName = true ∧ String.ofList p.writtenName = p.name := by
  rcases h.name_identifier with hidentifier | ⟨hname, hvariadic⟩
  · have hne : p.name ≠ anonymous := by
      intro heq
      rw [heq] at hidentifier
      exact absurd hidentifier (by decide +kernel)
    rw [writtenName, if_neg hne]
    exact Or.inr ⟨hidentifier, String.ofList_toList⟩
  · exact Or.inl ⟨if_pos hname, hname, hvariadic⟩

theorem readName_writtenName : readName p.writtenName p.variadic = .ok p.name := by
  rcases h.writtenName_cases with ⟨hnil, hname, hvariadic⟩ | ⟨hidentifier, hname⟩
  · simp [readName, hnil, hname, hvariadic]
  · obtain ⟨c, rest, hcons, -, -⟩ := exists_cons_of_isIdentifier hidentifier
    have hempty : p.writtenName.isEmpty = false := by rw [hcons]; rfl
    simp [readName, hempty, hidentifier, hname]

theorem isWordChar_writtenName {c : Char} (hc : c ∈ p.writtenName) : isWordChar c = true := by
  rcases h.writtenName_cases with ⟨hnil, -⟩ | ⟨hidentifier, -⟩
  · simp [hnil] at hc
  · exact isWordChar_of_mem hidentifier hc

theorem isTight_of_mem_writtenName {c : Char} (hc : c ∈ p.writtenName) : isTight c = true :=
  isTight_of_isWordChar (h.isWordChar_writtenName hc)

/-! #### The name and the hint -/

theorem tight_declaredText : ∀ c ∈ p.declaredText.getLast?, isTight c = true := by
  intro c hc
  cases hhint : p.typeHint with
  | none =>
      simp only [declaredText, hhint, List.append_nil] at hc
      exact h.isTight_of_mem_writtenName (List.mem_of_getLast? hc)
  | some hint =>
      have hfits := h.hint hint hhint
      have hlast : p.declaredText.getLast? = hint.toList.getLast? := by
        simp [declaredText, hhint, List.getLast?_append, List.getLast?_cons,
          List.getLast?_eq_some_getLast hfits.ne_nil]
      rw [hlast] at hc
      exact hfits.tight c hc

theorem head_declaredText : ∀ c ∈ p.declaredText.head?, isBlank c = false ∧ c ≠ '&' := by
  intro c hc
  have hplain : c ∈ p.writtenName ∨ c = ':' := by
    cases hname : p.writtenName with
    | nil =>
        cases hhint : p.typeHint with
        | none => simp [declaredText, hname, hhint] at hc
        | some hint =>
            simp only [declaredText, hname, hhint, List.nil_append, List.head?_cons] at hc
            exact Or.inr (Option.some.inj hc).symm
    | cons d rest =>
        simp only [declaredText, hname, List.cons_append, List.head?_cons] at hc
        exact Or.inl (by simp [← Option.some.inj hc])
  rcases hplain with hmem | rfl
  · have hword := h.isWordChar_writtenName hmem
    refine ⟨not_isBlank_of_isWordChar hword, ?_⟩
    rintro rfl
    exact absurd hword (by decide +kernel)
  · decide

theorem isTrimmed_declaredText : IsTrimmed p.declaredText :=
  ⟨fun c hc => (h.head_declaredText c hc).1,
    fun c hc => not_isBlank_of_isTight (h.tight_declaredText c hc)⟩

/-- Only a collector can have nothing in front of its suffix. -/
theorem variadic_of_declaredText_eq_nil (hnil : p.declaredText = []) : p.variadic = true := by
  rcases h.writtenName_cases with ⟨-, -, hvariadic⟩ | ⟨hidentifier, -⟩
  · exact hvariadic
  · rw [(List.append_eq_nil_iff.1 hnil).1] at hidentifier
    exact Bool.noConfusion hidentifier

theorem unmarked_declaredText : ¬[':', '='] <:+: p.declaredText := by
  refine not_mark_infix_append_left ?_ ?_
  · intro hmem
    exact absurd (h.isWordChar_writtenName hmem) (by decide +kernel)
  · cases hhint : p.typeHint with
    | none => simp
    | some hint => simp [mark_infix_cons, (h.hint hint hhint).unmarked]

/-- The name and the hint are read as such, and so are markers that follow them. -/
theorem readDeclared_declaredText {tail : List Char} {markers : Markers}
    (hstrip : stripMarkers (p.declaredText ++ tail) = (p.declaredText, markers))
    (position : Nat) :
    readDeclared position (p.declaredText ++ tail) =
      .ok (p.writtenName, p.typeHint.map String.toList, markers) := by
  have hcolon : ':' ∉ p.writtenName := fun hmem =>
    absurd (h.isWordChar_writtenName hmem) (by decide +kernel)
  have htrim : trim p.writtenName = p.writtenName :=
    trim_of_isTrimmed
      ⟨fun c hc => not_isBlank_of_isTight (h.isTight_of_mem_writtenName (List.mem_of_head? hc)),
        fun c hc => not_isBlank_of_isTight (h.isTight_of_mem_writtenName (List.mem_of_getLast? hc))⟩
  cases hhint : p.typeHint with
  | none =>
      have hdeclared : p.declaredText = p.writtenName := by simp [declaredText, hhint]
      have hsplit := splitColon?_append hcolon []
      rw [List.append_nil] at hsplit
      rw [hdeclared] at hstrip ⊢
      simp [readDeclared, hstrip, hsplit, splitColon?, htrim]
  | some hint =>
      have hfits := h.hint hint hhint
      have hdeclared : p.declaredText = p.writtenName ++ ':' :: ' ' :: hint.toList := by
        simp [declaredText, hhint]
      have hname := stripMarkers_of_tight fun c hc =>
        h.isTight_of_mem_writtenName (List.mem_of_getLast? hc)
      have hafter : trim (' ' :: hint.toList) = hint.toList := by
        rw [trim_space_cons, trim_of_isTrimmed hfits.trimmed]
      rw [hdeclared] at hstrip ⊢
      simp only [readDeclared, hstrip, splitColon?_append hcolon]
      simp [splitColon?, hafter, hfits.ne_nil, hname, htrim, Markers.union, Markers.none]

/-! #### The suffix -/

theorem suffix_of_value {value : DefaultValue} (hvalue : p.defaultValue = some value) :
    p.suffix.toList = ' ' :: ':' :: '=' :: ' ' :: value.text.toList := by
  have hvariadic := (h.value value hvalue).2.2.2.2
  simp [suffix, hvariadic, hvalue]

omit h in
/-- Without a default value only markers follow, which are taken off again. -/
theorem suffix_of_none (hnone : p.defaultValue = none) :
    (p.suffix.toList = ['*'] ∧ p.variadic = true) ∨
      (p.suffix.toList = ['?'] ∧ p.variadic = false ∧ p.optional = true) ∨
      (p.suffix.toList = [] ∧ p.variadic = false ∧ p.optional = false) := by
  cases hvariadic : p.variadic <;> cases hoptional : p.optional <;>
    simp [suffix, hvariadic, hoptional, hnone]

theorem stripMarkers_suffix (hnone : p.defaultValue = none) :
    stripMarkers (p.declaredText ++ p.suffix.toList) =
      (p.declaredText, ⟨p.variadic, p.optional && !p.variadic⟩) := by
  rcases suffix_of_none hnone with ⟨hsuffix, hv⟩ | ⟨hsuffix, hv, ho⟩ | ⟨hsuffix, hv, ho⟩
  · rw [hsuffix, stripMarkers_append_marker h.tight_declaredText (by decide)]
    simp [hv]
  · rw [hsuffix, stripMarkers_append_marker h.tight_declaredText (by decide)]
    simp [hv, ho]
  · rw [hsuffix, List.append_nil, stripMarkers_of_tight h.tight_declaredText]
    simp [hv, ho, Markers.none]

/-- What follows the ampersand starts neither with a blank nor with another ampersand. -/
theorem head_written :
    ∀ c ∈ (p.declaredText ++ p.suffix.toList).head?, isBlank c = false ∧ c ≠ '&' := by
  intro c hc
  cases hdeclared : p.declaredText with
  | nil =>
      have hvariadic := h.variadic_of_declaredText_eq_nil hdeclared
      simp [hdeclared, suffix, hvariadic] at hc
      rw [← hc]
      decide
  | cons d rest =>
      rw [hdeclared, List.cons_append, List.head?_cons] at hc
      exact h.head_declaredText c (by rw [hdeclared]; exact hc)

theorem last_written :
    ∀ c ∈ (p.declaredText ++ p.suffix.toList).getLast?, isBlank c = false := by
  intro c hc
  cases hvalue : p.defaultValue with
  | some value =>
      obtain ⟨hne, htrimmed, -⟩ := h.value value hvalue
      refine htrimmed.2 c ?_
      simpa [h.suffix_of_value hvalue, List.getLast?_append, List.getLast?_cons,
        List.getLast?_eq_some_getLast hne] using hc
  | none =>
      rcases suffix_of_none hvalue with ⟨hsuffix, -⟩ | ⟨hsuffix, -⟩ | ⟨hsuffix, -⟩
      · have hstar : c = '*' := by simpa [hsuffix, eq_comm] using hc
        rw [hstar]
        decide
      · have hquestion : c = '?' := by simpa [hsuffix, eq_comm] using hc
        rw [hquestion]
        decide
      · rw [hsuffix, List.append_nil] at hc
        exact not_isBlank_of_isTight (h.tight_declaredText c hc)

theorem written_ne_nil : p.declaredText ++ p.suffix.toList ≠ [] := by
  intro hnil
  obtain ⟨hdeclared, hsuffix⟩ := List.append_eq_nil_iff.1 hnil
  have hvariadic := h.variadic_of_declaredText_eq_nil hdeclared
  simp [suffix, hvariadic] at hsuffix

theorem isTrimmed_label : IsTrimmed p.label.toList := by
  rw [label_toList]
  exact isTrimmed_referenceText_append _ ⟨fun c hc => (h.head_written c hc).1, h.last_written⟩

/-! #### Default values -/

omit h in
theorem colon_not_mem_referenceText (reference : Bool) : ':' ∉ referenceText reference := by
  cases reference <;> decide

/-- A default value is cut off at its mark. -/
theorem splitDefault_label_of_value {value : DefaultValue} (hvalue : p.defaultValue = some value) :
    splitDefault p.label.toList =
      (referenceText p.byReference ++ p.declaredText ++ [' '], some value.text.toList) := by
  have hunmarked : ¬[':', '='] <:+: referenceText p.byReference ++ p.declaredText ++ [' '] :=
    not_mark_infix_append (not_mark_infix_append_left (colon_not_mem_referenceText _)
      h.unmarked_declaredText) (by decide)
  have hsplit := splitAssign?_append hunmarked (' ' :: value.text.toList)
  have hlabel : p.label.toList = referenceText p.byReference ++ p.declaredText ++ [' '] ++
      ':' :: '=' :: ' ' :: value.text.toList := by
    simp [label_toList, h.suffix_of_value hvalue]
  rw [hlabel, splitDefault, hsplit]
  simp only [trim_space_cons, trim_of_isTrimmed (h.value value hvalue).2.1]

omit h in
theorem not_sign_of_mem_suffix (hnone : p.defaultValue = none) :
    ∀ c ∈ p.suffix.toList, c ≠ '=' ∧ c ≠ '>' := by
  rcases suffix_of_none hnone with ⟨hsuffix, -⟩ | ⟨hsuffix, -⟩ | ⟨hsuffix, -⟩ <;> simp [hsuffix]

/-- What stands before the hint of a label is neither an equals sign nor a quote. -/
theorem plain_front {c : Char} (hc : c ∈ referenceText p.byReference ++ p.writtenName) :
    c ≠ '=' ∧ isQuoteMark c = false := by
  refine plain_before_hint ?_
  rcases List.mem_append.1 hc with hc | hc
  · cases hreference : p.byReference <;> simp [hreference, referenceText] at hc
    exact Or.inl hc
  · exact Or.inr (Or.inr (Or.inr (h.isWordChar_writtenName hc)))

/-- Without a default value no equals sign of the name and the hint is taken for a mark. -/
theorem splitEquals?_declaredText (hnone : p.defaultValue = none) :
    splitEquals? none (referenceText p.byReference ++ p.declaredText) = none := by
  cases hhint : p.typeHint with
  | none =>
      refine splitEquals?_of_not_mem (fun hmem => ?_) _
      simp only [declaredText, hhint, List.append_nil] at hmem
      exact (h.plain_front hmem).1 rfl
  | some hint =>
      have hfront : ∀ c ∈ referenceText p.byReference ++ p.writtenName ++ [':', ' '],
          c ≠ '=' ∧ isQuoteMark c = false :=
        List.forall_mem_append.2 ⟨fun c hc => h.plain_front hc, by simp [isQuoteMark]⟩
      have hdeclared : referenceText p.byReference ++ p.declaredText =
          referenceText p.byReference ++ p.writtenName ++ [':', ' '] ++ hint.toList := by
        simp [declaredText, hhint]
      rw [hdeclared, splitEquals?_plain_append_iff (fun hmem => (hfront _ hmem).1 rfl)
        fun c hc => (hfront c hc).2]
      simpa [List.getLast?_append] using h.hint_unassigned hnone hint hhint

/-- Nothing is taken for a default value where there is none. -/
theorem splitDefault_label_of_none (hnone : p.defaultValue = none) :
    splitDefault p.label.toList = (p.label.toList, none) := by
  have hsuffix := not_sign_of_mem_suffix hnone
  have hassign : splitAssign? p.label.toList = none := by
    rw [splitAssign?_eq_none_iff, label_toList]
    exact not_mark_infix_append_left (colon_not_mem_referenceText _)
      (not_mark_infix_append h.unmarked_declaredText fun hmem => (hsuffix _ hmem).1 rfl)
  have hequals : splitEquals? none p.label.toList = none := by
    rw [label_toList, ← List.append_assoc, splitEquals?_append_iff hsuffix]
    exact h.splitEquals?_declaredText hnone
  simp [splitDefault, hassign, hequals]

end IsLegible

/-- The label of a legible parameter is read as it. -/
theorem read_label_of_isLegible {p : Parameter} (h : p.IsLegible) :
    Parameter.read p.position p.label.toList =
      .ok { p with optional := p.optional && !p.variadic } := by
  have htrim := trim_of_isTrimmed h.isTrimmed_label
  have hne : p.label.toList ≠ [] := by
    rw [label_toList]
    exact List.append_ne_nil_of_right_ne_nil _ h.written_ne_nil
  have hhint : (p.typeHint.map String.toList).map String.ofList = p.typeHint := by
    cases p.typeHint <;> simp
  rw [read_eq_ok_iff, htrim]
  cases hvalue : p.defaultValue with
  | some value =>
      obtain ⟨hvalueNe, -, hof, hoptional, hvariadic⟩ := h.value value hvalue
      have hstrip : stripMarkers (p.declaredText ++ []) = (p.declaredText, Markers.none) := by
        rw [List.append_nil]
        exact stripMarkers_of_tight h.tight_declaredText
      have hdeclared := h.readDeclared_declaredText hstrip p.position
      rw [List.append_nil] at hdeclared
      have hreference := stripReference_append p.byReference h.head_declaredText
      have hfront := trim_append_space
        (isTrimmed_referenceText_append p.byReference h.isTrimmed_declaredText)
      have hname : readName p.writtenName Markers.none.variadic = .ok p.name := by
        rw [← h.readName_writtenName, hvariadic]
        rfl
      have hdefault : readDefault p.name Markers.none.variadic (some value.text.toList) =
          .ok (some value) := by
        simp [readDefault, Markers.none, hvalueNe, hof]
      refine ⟨hne, _, _, _, _, _, _, _, _, _, h.splitDefault_label_of_value hvalue,
        by rw [hfront, hreference], hdeclared, hname, hdefault, ?_⟩
      simp [hhint, hoptional, hvariadic, Markers.none]
  | none =>
      have hdeclared := h.readDeclared_declaredText (h.stripMarkers_suffix hvalue) p.position
      have hreference := stripReference_append p.byReference h.head_written
      rw [← label_toList] at hreference
      refine ⟨hne, _, _, _, _, _, _, _, _, _, h.splitDefault_label_of_none hvalue,
        by rw [htrim, hreference], hdeclared, h.readName_writtenName, rfl, ?_⟩
      simp [hhint]

/-- The label says nothing of a collector being optional. -/
theorem label_of_optional (p : Parameter) :
    ({ p with optional := p.optional && !p.variadic } : Parameter).label = p.label := by
  cases hvariadic : p.variadic <;> simp [label, suffix, hvariadic]

end Parameter

/-! ### Parameters that are read -/

/-- **The label of a parameter is read as the parameter**: whatever segment a parameter is read
from, its label can be read at the same place, and all that is lost is that a collector is optional
as well.  So what is read of the label has the same label. -/
theorem read_label {position : Nat} {segment : List Char} {p : Parameter}
    (h : Parameter.read position segment = .ok p) :
    ∃ again, Parameter.read position p.label.toList = .ok again ∧
      again = { p with optional := p.optional && !p.variadic } ∧ again.label = p.label := by
  obtain rfl := (Parameter.read_fits h).position_eq
  exact ⟨_, Parameter.read_label_of_isLegible (Parameter.isLegible_of_read h), rfl,
    p.label_of_optional⟩

/-- A collector by reference that is optional too, with signs of default values in its hint. -/
def wideSegment : List Char :=
  " & items\t:  Map:<Key=>Value == other> ? * ".toList

theorem read_label_wideSegment :
    Parameter.read 2 wideSegment =
        .ok ⟨"items", true, true, none, some "Map:<Key=>Value == other>", true, 2⟩ ∧
      ∃ again, Parameter.read 2 "&items: Map:<Key=>Value == other>*".toList = .ok again ∧
        again = ⟨"items", true, false, none, some "Map:<Key=>Value == other>", true, 2⟩ ∧
        again.label = "&items: Map:<Key=>Value == other>*" := by
  have hread : Parameter.read 2 wideSegment =
      .ok ⟨"items", true, true, none, some "Map:<Key=>Value == other>", true, 2⟩ := by
    decide +kernel
  have hlabel : Parameter.label
      ⟨"items", true, true, none, some "Map:<Key=>Value == other>", true, 2⟩ =
        "&items: Map:<Key=>Value == other>*" := by
    decide +kernel
  obtain ⟨again, hagain, heq, hagainLabel⟩ := read_label hread
  rw [hlabel] at hagain hagainLabel
  exact ⟨hread, again, hagain, heq, hagainLabel⟩

end ScriptOutline
