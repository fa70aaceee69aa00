/-
**Colour adds nothing but codes.**

A report with colours holds sequences of codes, each from an escape character to the letter `m`.
Where no text of the report holds an escape character, these are the only ones in the output, and
the output less its sequences is the report without colours: what is styled is also filled up and
cut into lines the same way.

Main definitions:

* `stripCodes`, `withoutCodes` — a text less its sequences of codes;
* `Unescaped` — a text without the escape character;
* `OutlineReport.texts`, `HoverReport.texts`, `LintReport.texts` — the texts that a report holds.

Main results:

* `stripCodes_paint`, `stripCodes_renderPieces` — a style is stripped off a text and off the pieces
  of an output;
* `unescaped_linesOfText`, `Routine.unescaped_qualifiedSignature` — what is made of texts holds an
  escape character only if they do;
* `OutlineReport.unescaped_pieces`, `HoverReport.unescaped_pieces`, `LintReport.unescaped_pieces` —
  no branch of a layout puts in an escape character;
* `withoutCodes_prettyText` — **less its codes, a report in colour is the report without colour**.
-/

import ScriptOutline.Proofs.TextLines
import ScriptOutline.Report.Pretty

set_option relaxedAutoImplicit false
set_option autoImplicit false

namespace ScriptOutline

/-! ### Texts less their codes -/

namespace Style

/-- Whether a character may stand between the bracket and the letter of a sequence of codes. -/
def isCodeSign (c : Char) : Bool :=
  c.isDigit || c = ';'

/-- What follows the sequence of codes at the start of a text, if there is one. -/
def afterSequence? : List Char → Option (List Char)
  | '\x1b' :: '[' :: rest =>
    match rest.dropWhile isCodeSign with
    | 'm' :: after => some after
    | _ => none
  | _ => none

theorem length_lt_of_afterSequence? {text after : List Char}
    (h : afterSequence? text = some after) : after.length < text.length := by
  unfold afterSequence? at h
  split at h
  · next rest =>
      split at h
      · next tail htail =>
          have hle := (List.dropWhile_suffix isCodeSign (l := rest)).length_le
          rw [htail, List.length_cons] at hle
          rw [← Option.some.inj h, List.length_cons, List.length_cons]
          omega
      · cases h
  · cases h

theorem afterSequence?_of_ne {c : Char} (hc : c ≠ '\x1b') (rest : List Char) :
    afterSequence? (c :: rest) = none := by
  unfold afterSequence?
  split
  · next heq => exact absurd (List.cons.inj heq).1 hc
  · rfl

theorem afterSequence?_sequence {codes : List Char} (h : ∀ c ∈ codes, isCodeSign c = true)
    (rest : List Char) : afterSequence? (sequence codes ++ rest) = some rest := by
  have hdrop : (codes ++ 'm' :: rest).dropWhile isCodeSign = 'm' :: rest := by
    rw [List.dropWhile_append_of_pos h]
    rfl
  simp [sequence, afterSequence?, hdrop]

/-- The codes of every style are made of digits and semicolons. -/
theorem isCodeSign_of_mem_codes (s : Style) : ∀ c ∈ s.codes, isCodeSign c = true := by
  have hall : s.codes.all isCodeSign = true := by
    cases s <;> decide
  exact List.all_eq_true.1 hall

end Style

/-- A text less its sequences of codes, each found where the one before it ends or later. -/
def stripCodes (text : List Char) : List Char :=
  match text with
  | [] => []
  | c :: rest =>
    match _h : Style.afterSequence? (c :: rest) with
    | some after => stripCodes after
    | none => c :: stripCodes rest
termination_by text.length
decreasing_by
  · exact Style.length_lt_of_afterSequence? _h
  · exact Nat.lt_succ_self rest.length

/-- A text less its sequences of codes. -/
def withoutCodes (s : String) : String :=
  String.ofList (stripCodes s.toList)

@[simp] theorem stripCodes_nil : stripCodes [] = [] := by
  rw [stripCodes]

/-- A sequence of codes goes. -/
theorem stripCodes_sequence {codes : List Char} (h : ∀ c ∈ codes, Style.isCodeSign c = true)
    (rest : List Char) : stripCodes (Style.sequence codes ++ rest) = stripCodes rest := by
  have hafter := Style.afterSequence?_sequence h rest
  simp only [Style.sequence, List.cons_append] at hafter ⊢
  rw [stripCodes]
  split
  · next after heq => rw [Option.some.inj (hafter.symm.trans heq)]
  · next heq => exact absurd (hafter.symm.trans heq) (Option.some_ne_none rest)

/-- A character other than the escape character stays. -/
theorem stripCodes_cons {c : Char} (hc : c ≠ '\x1b') (rest : List Char) :
    stripCodes (c :: rest) = c :: stripCodes rest := by
  rw [stripCodes]
  split
  · next after heq => simp [Style.afterSequence?_of_ne hc] at heq
  · rfl

/-- A text without the escape character stays. -/
theorem stripCodes_append {text : List Char} (h : '\x1b' ∉ text) (rest : List Char) :
    stripCodes (text ++ rest) = text ++ stripCodes rest := by
  induction text with
  | nil => rfl
  | cons c text ih =>
      rw [List.mem_cons, not_or] at h
      rw [List.cons_append, stripCodes_cons (Ne.symm h.1), ih h.2, List.cons_append]

/-! ### Styles stripped off -/

/-- A text without the escape character switches no style off. -/
theorem Style.resume_of_unescaped (again : List Char) {text : List Char} (h : '\x1b' ∉ text) :
    resume again text = text := by
  fun_induction resume again text with
  | case1 rest ih => simp at h
  | case2 c rest hother ih =>
      rw [List.mem_cons, not_or] at h
      rw [ih h.2]
  | case3 => rfl

/-- A style is stripped off a text. -/
theorem stripCodes_paint (s : Style) {text : List Char} (h : '\x1b' ∉ text) (rest : List Char) :
    stripCodes (s.paint text ++ rest) = text ++ stripCodes rest := by
  have hstop : ∀ c ∈ ['0'], Style.isCodeSign c = true :=
    List.forall_mem_singleton.2 (by decide)
  rw [Style.paint, Style.resume_of_unescaped _ h, List.append_assoc, List.append_assoc,
    Style.start, stripCodes_sequence s.isCodeSign_of_mem_codes, stripCodes_append h, Style.stop,
    stripCodes_sequence hstop]

/-- A text without the escape character. -/
def Unescaped (s : String) : Prop :=
  '\x1b' ∉ s.toList

instance (s : String) : Decidable (Unescaped s) :=
  inferInstanceAs (Decidable ('\x1b' ∉ s.toList))

/-- Pieces of output whose texts are without the escape character. -/
def AllUnescaped (pieces : List Piece) : Prop :=
  ∀ p ∈ pieces, Unescaped p.text

instance (pieces : List Piece) : Decidable (AllUnescaped pieces) :=
  inferInstanceAs (Decidable (∀ p ∈ pieces, Unescaped p.text))

/-- The styles are stripped off the pieces of an output. -/
theorem stripCodes_renderPieces {pieces : List Piece} (h : AllUnescaped pieces) :
    stripCodes (renderPieces true pieces) = renderPieces false pieces := by
  induction pieces with
  | nil => exact stripCodes_nil
  | cons p pieces ih =>
      rw [AllUnescaped, List.forall_mem_cons] at h
      have hrest : stripCodes (pieces.flatMap (Piece.render true)) =
          pieces.flatMap (Piece.render false) := ih h.2
      rw [renderPieces, renderPieces, List.flatMap_cons, List.flatMap_cons, ← hrest]
      obtain ⟨style, text⟩ := p
      cases style with
      | none => exact stripCodes_append h.1 _
      | some style => exact stripCodes_paint style h.1 _

/-! ### Texts made of texts -/

@[simp] theorem unescaped_append {s t : String} :
    Unescaped (s ++ t) ↔ Unescaped s ∧ Unescaped t := by
  simp [Unescaped, not_or]

/-- The digits of a number hold no escape character. -/
@[simp] theorem unescaped_repr (n : Nat) : Unescaped n.repr := by
  intro hmem
  rw [Nat.toList_repr] at hmem
  exact absurd (Nat.isDigit_of_mem_toDigits (by decide) (by decide) hmem) (by decide)

@[simp] theorem unescaped_padRight {width : Nat} {s : String} :
    Unescaped (padRight width s) ↔ Unescaped s := by
  simp [padRight, Unescaped]

theorem unescaped_intercalate {separator : String} {parts : List String}
    (hseparator : Unescaped separator) (h : ∀ part ∈ parts, Unescaped part) :
    Unescaped (separator.intercalate parts) := by
  induction parts with
  | nil => simp [Unescaped]
  | cons part parts ih =>
      rw [List.forall_mem_cons] at h
      cases parts with
      | nil => simpa using h.1
      | cons next parts =>
          rw [String.intercalate_cons_cons, unescaped_append, unescaped_append]
          exact ⟨⟨h.1, hseparator⟩, ih h.2⟩

/-- The pieces of a text between its line feeds hold no other characters than the text. -/
theorem subset_of_mem_splitBreaks {text piece : List Char} (h : piece ∈ splitBreaks text) :
    piece ⊆ text := by
  induction text generalizing piece with
  | nil =>
      rw [splitBreaks, List.mem_singleton] at h
      rw [h]
      exact List.Subset.refl _
  | cons c rest ih =>
      obtain ⟨first, pieces, hrest⟩ := List.exists_cons_of_ne_nil (splitBreaks_ne_nil rest)
      rw [splitBreaks, hrest] at h
      rw [hrest] at ih
      split at h
      · rcases List.mem_cons.1 h with rfl | h
        · exact List.nil_subset _
        · exact List.subset_cons_of_subset c (ih h)
      · rcases List.mem_cons.1 h with rfl | h
        · exact List.cons_subset_cons c (ih List.mem_cons_self)
        · exact List.subset_cons_of_subset c (ih (List.mem_cons_of_mem first h))

theorem dropReturn_subset (piece : List Char) : dropReturn piece ⊆ piece := by
  unfold dropReturn
  split
  · exact List.dropLast_subset piece
  · exact List.Subset.refl piece

/-- The lines of a text hold no other characters than the text. -/
theorem unescaped_linesOfText {s : String} (h : Unescaped s) :
    ∀ line ∈ linesOfText s, Unescaped line := by
  have hpiece : ∀ piece ∈ splitBreaks s.toList, '\x1b' ∉ piece :=
    fun piece hmem hesc => h (subset_of_mem_splitBreaks hmem hesc)
  have hlines : ∀ line ∈ (splitBreaks s.toList).dropLast.map dropReturn, '\x1b' ∉ line := by
    rw [List.forall_mem_map]
    exact fun piece hmem hesc =>
      hpiece piece (List.dropLast_subset _ hmem) (dropReturn_subset piece hesc)
  rw [linesOfText, List.forall_mem_map]
  intro shown hshown
  rw [Unescaped, String.toList_ofList]
  split at hshown
  · exact hlines shown hshown
  · rcases List.mem_append.1 hshown with hshown | hlast
    · exact hlines shown hshown
    · exact hpiece shown (List.mem_of_getLast? (Option.mem_toList.1 hlast))

/-! ### The texts of a report -/

/-- The texts of a parameter. -/
def Parameter.texts (p : Parameter) : List String :=
  p.name :: (p.defaultValue.toList.map DefaultValue.text ++ p.typeHint.toList)

/-- The texts of a variable. -/
def Variable.texts (v : Variable) : List String :=
  v.name :: v.typeHint.toList

/-- The texts of a routine, of its parameters and of its variables. -/
def Routine.texts (r : Routine) : List String :=
  r.name :: (r.parameters.flatMap Parameter.texts ++ r.vars.toList.flatMap Variable.texts ++
    r.returnType.toList ++ r.documentation.toList ++ r.className.toList ++ r.parseError.toList)

/-- The texts of the outline of a file. -/
def FileOutline.texts (f : FileOutline) : List String :=
  f.path :: f.routines.flatMap Routine.texts

/-- The texts of a report on some files. -/
def OutlineReport.texts (r : OutlineReport) : List String :=
  r.version :: r.files.flatMap FileOutline.texts

/-- The texts of a report on a position. -/
def HoverReport.texts (r : HoverReport) : List String :=
  r.version :: r.path :: r.routine.toList.flatMap Routine.texts

/-- The texts of a finding. -/
def Finding.texts (f : Finding) : List String :=
  [f.message, f.file]

/-- The texts of a report on findings. -/
def LintReport.texts (r : LintReport) : List String :=
  r.version :: r.findings.flatMap Finding.texts

/-! ### What is said of a routine -/

namespace Parameter

variable {p : Parameter}

/-- The texts of a parameter, one after the other. -/
theorem unescaped_texts_iff : (∀ text ∈ p.texts, Unescaped text) ↔
    Unescaped p.name ∧ (∀ value, p.defaultValue = some value → Unescaped value.text) ∧
      ∀ hint, p.typeHint = some hint → Unescaped hint := by
  simp only [texts, List.forall_mem_cons, List.forall_mem_append, List.forall_mem_map,
    Option.mem_toList]

theorem unescaped_suffix (h : ∀ value, p.defaultValue = some value → Unescaped value.text) :
    Unescaped p.suffix := by
  unfold suffix
  split
  · decide
  · split
    · next value hvalue => exact unescaped_append.2 ⟨by decide, h value hvalue⟩
    · split <;> decide

theorem unescaped_label (h : ∀ text ∈ p.texts, Unescaped text) : Unescaped p.label := by
  obtain ⟨hname, hvalue, hhint⟩ := unescaped_texts_iff.1 h
  simp only [label, unescaped_append]
  refine ⟨⟨⟨?mark, ?name⟩, ?hint⟩, unescaped_suffix hvalue⟩
  case mark => split <;> decide
  case name =>
    split
    · decide
    · exact hname
  case hint =>
    split
    · next hint heq => exact unescaped_append.2 ⟨by decide, hhint hint heq⟩
    · decide

theorem unescaped_flags (h : ∀ text ∈ p.texts, Unescaped text) :
    ∀ flag ∈ parameterFlags p, Unescaped flag := by
  obtain ⟨-, hvalue, -⟩ := unescaped_texts_iff.1 h
  simp only [parameterFlags, List.forall_mem_append]
  refine ⟨⟨?_, ?_⟩, ?_⟩
  · split <;> decide
  · split
    · decide
    · split <;> decide
  · split
    · next value heq =>
        have hkind : Unescaped value.kind.name := by
          cases value.kind <;> decide
        simp +decide [hkind, hvalue value heq]
    · exact List.forall_mem_nil _

end Parameter

namespace Routine

variable {r : Routine}

/-- The texts of a routine, one after the other. -/
theorem unescaped_texts_iff : (∀ text ∈ r.texts, Unescaped text) ↔
    Unescaped r.name ∧ (∀ p ∈ r.parameters, ∀ text ∈ p.texts, Unescaped text) ∧
      (∀ v ∈ r.vars.toList, ∀ text ∈ v.texts, Unescaped text) ∧
      (∀ text, r.returnType = some text → Unescaped text) ∧
      (∀ text, r.documentation = some text → Unescaped text) ∧
      (∀ text, r.className = some text → Unescaped text) ∧
      ∀ text, r.parseError = some text → Unescaped text := by
  simp only [texts, List.forall_mem_cons, List.forall_mem_append, List.forall_mem_flatMap,
    Option.mem_toList, and_assoc]

theorem unescaped_qualified {name : String} (hname : Unescaped name)
    (hclass : ∀ text, r.className = some text → Unescaped text) : Unescaped (r.qualified name) := by
  unfold qualified
  split
  · next className heq =>
      rw [unescaped_append, unescaped_append]
      exact ⟨⟨hclass className heq, by decide⟩, hname⟩
  · exact hname

theorem unescaped_qualifiedSignature (h : ∀ text ∈ r.texts, Unescaped text) :
    Unescaped (qualifiedSignature r) := by
  obtain ⟨hname, hparameters, -, hreturn, -, hclass, -⟩ := unescaped_texts_iff.1 h
  refine unescaped_qualified ?_ hclass
  have hlabels : Unescaped (String.intercalate ", " (r.parameters.map Parameter.label)) := by
    refine unescaped_intercalate (by decide) (List.forall_mem_map.2 fun p hp => ?_)
    exact Parameter.unescaped_label (hparameters p hp)
  simp only [signature, unescaped_append]
  refine ⟨⟨⟨⟨hname, by decide⟩, hlabels⟩, by decide⟩, ?_⟩
  split
  · next type heq => exact unescaped_append.2 ⟨by decide, hreturn type heq⟩
  · decide

end Routine

/-- The numbers of arguments hold no escape character. -/
theorem unescaped_arity (r : Routine) : Unescaped (arity r) := by
  unfold arity
  split
  · split <;> simp +decide
  · simp +decide

/-- A span is shown in numbers. -/
theorem unescaped_display (s : Span) : Unescaped s.display := by
  simp +decide [Span.display]

/-! ### Layouts -/

section Pieces

variable {text : String} {p : Piece} {a b pieces : List Piece}

@[simp] theorem allUnescaped_nil : AllUnescaped [] :=
  List.forall_mem_nil _

@[simp] theorem allUnescaped_cons :
    AllUnescaped (p :: pieces) ↔ Unescaped p.text ∧ AllUnescaped pieces :=
  List.forall_mem_cons

@[simp] theorem allUnescaped_append :
    AllUnescaped (a ++ b) ↔ AllUnescaped a ∧ AllUnescaped b :=
  List.forall_mem_append

@[simp] theorem allUnescaped_flatMap {α : Type} {l : List α} {f : α → List Piece} :
    AllUnescaped (l.flatMap f) ↔ ∀ x ∈ l, AllUnescaped (f x) :=
  List.forall_mem_flatMap

@[simp] theorem text_plain : (Piece.plain text).text = text := rfl

@[simp] theorem text_styled {style : Style} : (Piece.styled style text).text = text := rfl

@[simp] theorem text_newline : Piece.newline.text = "\n" := rfl

theorem unescaped_headerPieces : AllUnescaped headerPieces := by decide

end Pieces

theorem unescaped_scopeSummary {label : String} {vars : List Variable} (hlabel : Unescaped label)
    (h : ∀ v ∈ vars, Unescaped v.name) : ∀ part ∈ scopeSummary label vars, Unescaped part := by
  unfold scopeSummary
  split
  · exact List.forall_mem_nil _
  · rw [List.forall_mem_singleton, unescaped_append, unescaped_append]
    exact ⟨⟨hlabel, by decide⟩, unescaped_intercalate (by decide) (List.forall_mem_map.2 h)⟩

theorem unescaped_variablePieces {v : Variables} (h : ∀ x ∈ v.toList, Unescaped x.name) :
    AllUnescaped (variablePieces v) := by
  simp only [Variables.toList, List.forall_mem_append] at h
  obtain ⟨⟨hstatics, hglobals⟩, hlocals⟩ := h
  unfold variablePieces
  extract_lets parts
  have hparts : ∀ part ∈ parts, Unescaped part := by
    simp only [parts, List.forall_mem_append]
    exact ⟨⟨unescaped_scopeSummary (by decide) hstatics,
      unescaped_scopeSummary (by decide) hglobals⟩, unescaped_scopeSummary (by decide) hlocals⟩
  split
  · exact allUnescaped_nil
  · simp +decide [unescaped_intercalate _ hparts]

theorem unescaped_routinePieces {r : Routine} (h : ∀ text ∈ r.texts, Unescaped text) :
    AllUnescaped (routinePieces r) := by
  obtain ⟨-, -, hvars, -, hdocumentation, -, herror⟩ := Routine.unescaped_texts_iff.1 h
  simp only [routinePieces, allUnescaped_append]
  refine ⟨⟨⟨⟨⟨?first, ?static⟩, by decide⟩, ?error⟩, ?summary⟩, ?vars⟩
  case first => simp +decide [Routine.unescaped_qualifiedSignature h, unescaped_arity r]
  case static => split <;> decide
  case error =>
    split
    · next error heq => simp +decide [herror error heq]
    · exact allUnescaped_nil
  case summary =>
    split
    · next summary heq =>
        obtain ⟨text, htext, hsummary⟩ := Option.bind_eq_some_iff.1 heq
        have hline : Unescaped summary :=
          unescaped_linesOfText (hdocumentation text htext) summary (List.mem_of_head? hsummary)
        simp +decide [hline]
    · exact allUnescaped_nil
  case vars =>
    exact unescaped_variablePieces fun v hv => hvars v hv v.name List.mem_cons_self

theorem FileOutline.unescaped_pieces {f : FileOutline} (h : ∀ text ∈ f.texts, Unescaped text) :
    AllUnescaped f.pieces := by
  rw [texts, List.forall_mem_cons, List.forall_mem_flatMap] at h
  simp only [pieces, allUnescaped_append, allUnescaped_flatMap]
  refine ⟨⟨?first, fun r hr => unescaped_routinePieces (h.2 r hr)⟩, ?last⟩
  case first =>
    have hplural : Unescaped (if f.routines.length = 1 then "" else "s") := by
      split <;> decide
    simp +decide [h.1, hplural]
  case last => split <;> decide

/-- The layout of an outline puts in no escape character. -/
theorem OutlineReport.unescaped_pieces {r : OutlineReport}
    (h : ∀ text ∈ r.texts, Unescaped text) : AllUnescaped r.pieces := by
  rw [texts, List.forall_mem_cons, List.forall_mem_flatMap] at h
  rw [pieces, allUnescaped_append, allUnescaped_append, allUnescaped_flatMap]
  refine ⟨⟨unescaped_headerPieces, fun f hf => f.unescaped_pieces (h.2 f hf)⟩, ?_⟩
  simp +decide

theorem unescaped_parameterPieces {parameters : List Parameter}
    (h : ∀ p ∈ parameters, ∀ text ∈ p.texts, Unescaped text) :
    AllUnescaped (parameterPieces parameters) := by
  unfold parameterPieces
  split
  · exact allUnescaped_nil
  · rw [allUnescaped_append, allUnescaped_flatMap]
    refine ⟨by decide, fun p hp => ?_⟩
    have hname : Unescaped p.name := (Parameter.unescaped_texts_iff.1 (h p hp)).1
    simp +decide [hname, unescaped_intercalate _ (Parameter.unescaped_flags (h p hp))]

theorem unescaped_variableListPieces {vars : List Variable}
    (h : ∀ v ∈ vars, ∀ text ∈ v.texts, Unescaped text) :
    AllUnescaped (variableListPieces vars) := by
  unfold variableListPieces
  split
  · exact allUnescaped_nil
  · rw [allUnescaped_append, allUnescaped_flatMap]
    refine ⟨by decide, fun v hv => ?_⟩
    have hv := h v hv
    rw [Variable.texts, List.forall_mem_cons] at hv
    have hscope : Unescaped v.scope.keyword := by
      cases v.scope <;> decide
    have hhint : Unescaped (v.typeHint.getD "") := by
      cases hhint : v.typeHint with
      | none => decide
      | some hint => exact hv.2 hint (by simp [hhint])
    simp +decide [hv.1, hscope, hhint]

/-- The layout of a report on a position puts in no escape character. -/
theorem HoverReport.unescaped_pieces {r : HoverReport} (h : ∀ text ∈ r.texts, Unescaped text) :
    AllUnescaped r.pieces := by
  simp only [texts, List.forall_mem_cons, List.forall_mem_flatMap, Option.mem_toList] at h
  obtain ⟨-, hpath, hroutine⟩ := h
  unfold pieces
  split
  · simp +decide [hpath]
  · next f heq =>
      have hf := hroutine f heq
      obtain ⟨-, hparameters, hvars, -, hdocumentation, -, -⟩ := Routine.unescaped_texts_iff.1 hf
      simp only [allUnescaped_append]
      refine ⟨⟨⟨⟨?first, ?documentation⟩, unescaped_parameterPieces hparameters⟩,
        unescaped_variableListPieces hvars⟩, by decide⟩
      case first =>
        simp +decide [Routine.unescaped_qualifiedSignature hf, hpath, unescaped_display f.span,
          unescaped_arity f]
      case documentation =>
        split
        · next text htext =>
            rw [allUnescaped_cons, allUnescaped_flatMap]
            refine ⟨by decide, fun line hline => ?_⟩
            simp +decide [unescaped_linesOfText (hdocumentation text htext) line hline]
        · exact allUnescaped_nil

theorem unescaped_findingPieces {f : Finding} (h : ∀ text ∈ f.texts, Unescaped text) :
    AllUnescaped (findingPieces f) := by
  simp only [Finding.texts, List.forall_mem_cons] at h
  obtain ⟨hmessage, hfile, -⟩ := h
  have hseverity : Unescaped (severityPiece f.severity).text := by
    cases f.severity <;> decide
  have hrule : Unescaped f.rule.name := by
    cases f.rule <;> decide
  simp +decide [findingPieces, hseverity, hrule, hfile, hmessage]

/-- The layout of a report on findings puts in no escape character. -/
theorem LintReport.unescaped_pieces {r : LintReport} (h : ∀ text ∈ r.texts, Unescaped text) :
    AllUnescaped r.pieces := by
  rw [texts, List.forall_mem_cons, List.forall_mem_flatMap] at h
  simp only [pieces, allUnescaped_append]
  refine ⟨⟨unescaped_headerPieces, ?verdict⟩, ?findings⟩
  case verdict => cases r.passed <;> simp +decide
  case findings =>
    split
    · exact allUnescaped_nil
    · rw [allUnescaped_append, allUnescaped_flatMap]
      refine ⟨?_, fun f hf => unescaped_findingPieces (h.2 f hf)⟩
      simp +decide

/-! ### Colour -/

theorem withoutCodes_of_unescaped {pieces : List Piece} (h : AllUnescaped pieces) :
    withoutCodes (prettyText true pieces) = prettyText false pieces := by
  rw [withoutCodes, prettyText, String.toList_ofList, stripCodes_renderPieces h, prettyText]

/-- **Less its codes, a report in colour is the report without colour**, if its texts hold no escape
character. -/
theorem withoutCodes_prettyText :
    (∀ r : OutlineReport, (∀ text ∈ r.texts, Unescaped text) →
      withoutCodes (prettyText true r.pieces) = prettyText false r.pieces) ∧
    (∀ r : HoverReport, (∀ text ∈ r.texts, Unescaped text) →
      withoutCodes (prettyText true r.pieces) = prettyText false r.pieces) ∧
    ∀ r : LintReport, (∀ text ∈ r.texts, Unescaped text) →
      withoutCodes (prettyText true r.pieces) = prettyText false r.pieces :=
  ⟨fun _ h => withoutCodes_of_unescaped (OutlineReport.unescaped_pieces h),
    fun _ h => withoutCodes_of_unescaped (HoverReport.unescaped_pieces h),
    fun _ h => withoutCodes_of_unescaped (LintReport.unescaped_pieces h)⟩

/-- A method with a comment of several lines whose parameters could not all be read.  Of some
parameters and variables there is nothing to say besides the name. -/
def troubledRoutine : Routine where
  name := "Draw"
  parameters :=
    [.plain "canvas" 0, ⟨"colour", true, true, some ⟨.constant, "\"red\""⟩, none, false, 1⟩]
  vars :=
    ⟨[⟨"count", .static, true, ⟨3, 11⟩, some "Integer"⟩],
      [⟨"x", .local, false, ⟨4, 4⟩, none⟩], []⟩
  minArgs := 1
  maxArgs := .count 2
  returnType := none
  variadic := false
  span := ⟨⟨2, 4⟩, ⟨5, 5⟩⟩
  documentation := some "Draws a line.\r\n\nSlowly.\n"
  version := 0
  bodyKind := .block
  className := some "Pen"
  isStatic := true
  parseError := some "parameter 3 has no name"

/-- Reports in colour differ from those without in their codes, and in nothing else. -/
theorem withoutCodes_prettyText_troubledRoutine :
    let finding : Finding := ⟨.malformedSignature, "cannot be read", "pen.ahk", 3, 5, .warning⟩
    let outline : OutlineReport := .ofFiles [⟨"pen.ahk", [troubledRoutine]⟩, ⟨"none.ahk", []⟩]
    let hover : HoverReport := .at "pen.ahk" 4 2 (some troubledRoutine)
    let lint : LintReport := .ofFiles [[finding]]
    (prettyText true outline.pieces ≠ prettyText false outline.pieces ∧
      withoutCodes (prettyText true outline.pieces) = prettyText false outline.pieces) ∧
    (prettyText true hover.pieces ≠ prettyText false hover.pieces ∧
      withoutCodes (prettyText true hover.pieces) = prettyText false hover.pieces) ∧
    prettyText true lint.pieces ≠ prettyText false lint.pieces ∧
      withoutCodes (prettyText true lint.pieces) = prettyText false lint.pieces := by
  intro finding outline hover lint
  obtain ⟨houtline, hhover, hlint⟩ := withoutCodes_prettyText
  exact ⟨⟨by decide +kernel, houtline outline (by decide +kernel)⟩,
    ⟨by decide +kernel, hhover hover (by decide +kernel)⟩,
    by decide +kernel, hlint lint (by decide +kernel)⟩

end ScriptOutline
