/-
**Numerals as defaults and as initializers.**

A default value that is a numeral is a constant, and an initializer that is one has the hint of an
integer or of a float.  The tests for the three are separate, and they agree on what a numeral is
but for one shape: digits with an exponent and no point are a numeral and no hint is given for them.

Main definitions:

* `HasNumericHint` — a text has the hint of an integer or of a float.

Main results:

* `Hint.ofText?_of_head` — what starts as a numeral does has the hint of one or none;
* `Hint.ofText?_integer_iff`, `Hint.ofText?_float_iff` — the two hints are given by their tests;
* `numericHint_iff` — **the hint of a number goes with a constant numeral, unless its digits have an
  exponent and no point**.
-/

import Mathlib.Data.Bool.AllAny
import ScriptOutline.Parameter.Literal
import ScriptOutline.Proofs.BracketHints
import ScriptOutline.Proofs.NumeralShapes

set_option relaxedAutoImplicit false
set_option autoImplicit false

namespace ScriptOutline

/-- A text has the hint of a number. -/
def HasNumericHint (cs : List Char) : Prop :=
  Hint.ofText? cs = some .integer ∨ Hint.ofText? cs = some .float

/-- What starts as a numeral does has the hint of one or none. -/
theorem Hint.ofText?_of_head {cs : List Char} {c : Char} {rest : List Char}
    (htrim : trim cs = c :: rest) (hc : isDecimalDigit c = true ∨ c ∈ ['+', '-', '.']) :
    Hint.ofText? cs =
      if isInteger (c :: rest) then some .integer
      else if isFloat (c :: rest) then some .float
      else none := by
  have hmark : c ∉ ['"', '\'', '[', '{'] := by
    rcases hc with hdigit | hc
    · have hnot := not_mem_of_isDecimalDigit hdigit
      simp only [List.mem_cons, not_or] at hnot
      simp [hnot]
    · have hmarks : ∀ c ∈ ['+', '-', '.'], c ∉ ['"', '\'', '[', '{'] :=
        List.all_iff_forall_prop.1 (by decide)
      exact hmarks c hc
  have halpha : ¬c.isAlpha = true := by
    intro halpha
    have hletter := forall_of_isAlpha
      (p := fun c => !isDecimalDigit c && decide (c ∉ ['+', '-', '.'])) (by decide +kernel) halpha
    simp only [Bool.and_eq_true, Bool.not_eq_true', decide_eq_true_eq] at hletter
    obtain ⟨hdigit, hnot⟩ := hletter
    rcases hc with hc | hc
    · rw [hdigit] at hc
      exact Bool.noConfusion hc
    · exact hnot hc
  have hcall : (builtInClasses.find? fun named => isCallOf named.1 (c :: rest)) = none := by
    refine List.find?_eq_none.2 fun named hnamed hcall => ?_
    obtain ⟨c', rest', heq, halpha', -⟩ := @exists_cons_of_isCallOf named.1 _ named.2 hnamed hcall
    rw [(List.cons.inj heq).1] at halpha
    exact halpha halpha'
  simp only [List.mem_cons, List.not_mem_nil, or_false, not_or] at hmark
  unfold Hint.ofText?
  simp [htrim, isBetween, isEnclosed, Quote.char, hmark, hcall]

/-- A text that neither test accepts has another hint or none. -/
theorem not_hasNumericHint {cs : List Char} (hinteger : isInteger (trim cs) = false)
    (hfloat : isFloat (trim cs) = false) : ¬HasNumericHint cs := by
  have hclass : ∀ named ∈ builtInClasses, named.2 ≠ .integer ∧ named.2 ≠ .float := by decide
  unfold HasNumericHint Hint.ofText?
  simp only [hinteger, hfloat, Bool.false_eq_true, if_false]
  split
  · simp
  · split
    · simp
    · split
      · simp
      · rintro (h | h)
        · obtain ⟨named, hfind, hhint⟩ := Option.map_eq_some_iff.1 h
          exact (hclass named (List.mem_of_find?_eq_some hfind)).1 hhint
        · obtain ⟨named, hfind, hhint⟩ := Option.map_eq_some_iff.1 h
          exact (hclass named (List.mem_of_find?_eq_some hfind)).2 hhint

/-- No text is both an integer and a float. -/
theorem not_isFloat_of_isInteger {cs : List Char} (h : isInteger cs = true) :
    isFloat cs = false := by
  rw [Bool.eq_false_iff]
  intro hfloat
  have hpointed := isFloat_iff.1 hfloat
  rcases isInteger_iff.1 h with hhex | hwhole
  · exact NumeralShape.noConfusion (hhex.shape_eq hpointed)
  · exact NumeralShape.noConfusion (hwhole.shape_eq hpointed)

theorem Hint.ofText?_integer_iff {cs : List Char} :
    Hint.ofText? cs = some .integer ↔ isInteger (trim cs) = true := by
  constructor
  · intro h
    by_contra hinteger
    rw [Bool.not_eq_true] at hinteger
    cases hfloat : isFloat (trim cs) with
    | false => exact not_hasNumericHint hinteger hfloat (Or.inl h)
    | true => simp [Hint.ofText?, hinteger, hfloat] at h
  · intro h
    simp [Hint.ofText?, h]

theorem Hint.ofText?_float_iff {cs : List Char} :
    Hint.ofText? cs = some .float ↔ isFloat (trim cs) = true := by
  constructor
  · intro h
    by_contra hfloat
    rw [Bool.not_eq_true] at hfloat
    cases hinteger : isInteger (trim cs) with
    | false => exact not_hasNumericHint hinteger hfloat (Or.inr h)
    | true => simp [Hint.ofText?, hinteger] at h
  · intro h
    have hinteger : isInteger (trim cs) = false := by
      rw [Bool.eq_false_iff]
      intro hinteger
      rw [not_isFloat_of_isInteger hinteger] at h
      exact Bool.false_ne_true h
    simp [Hint.ofText?, hinteger, h]

/-- A numeral is a constant. -/
theorem DefaultValue.ofText_numeral {cs : List Char} (h : isNumeral (trim cs) = true) :
    (DefaultValue.ofText cs).kind = .constant := by
  simp [DefaultValue.ofText, isConstant, h]

/-- The text of a numeral with an exponent and no point has no hint of any kind. -/
theorem Hint.ofText?_scientific {cs : List Char} (h : NumeralShape.scientific.Has (trim cs)) :
    Hint.ofText? cs = none := by
  obtain ⟨c, rest, htrim, hc⟩ := h.head
  rw [htrim] at h
  have hinteger : ¬isInteger (c :: rest) = true := by
    intro hinteger
    rcases isInteger_iff.1 hinteger with hother | hother
    · exact NumeralShape.noConfusion (h.shape_eq hother)
    · exact NumeralShape.noConfusion (h.shape_eq hother)
  have hfloat : ¬isFloat (c :: rest) = true := by
    intro hfloat
    exact NumeralShape.noConfusion (h.shape_eq (isFloat_iff.1 hfloat))
  rw [Hint.ofText?_of_head htrim hc, if_neg hinteger, if_neg hfloat]

/--
**A text has the hint of a number exactly if it is a constant for being a numeral, and not one whose
digits have an exponent and no point.**  Those are constants too, and have no hint at all.  The hint
tells whole and hexadecimal numerals from those with a point.
-/
theorem numericHint_iff (cs : List Char) :
    (HasNumericHint cs ↔
      ((DefaultValue.ofText cs).kind = .constant ∧ isNumeral (trim cs) = true) ∧
        ¬NumeralShape.scientific.Has (trim cs)) ∧
    (isNumeral (trim cs) = true ↔ ∃ shape : NumeralShape, shape.Has (trim cs)) ∧
    (Hint.ofText? cs = some .integer ↔
      NumeralShape.hexadecimal.Has (trim cs) ∨ NumeralShape.whole.Has (trim cs)) ∧
    (Hint.ofText? cs = some .float ↔ NumeralShape.pointed.Has (trim cs)) ∧
    (NumeralShape.scientific.Has (trim cs) →
      (DefaultValue.ofText cs).kind = .constant ∧ Hint.ofText? cs = none) := by
  have hinteger := Hint.ofText?_integer_iff.trans (@isInteger_iff (trim cs))
  have hfloat := Hint.ofText?_float_iff.trans (@isFloat_iff (trim cs))
  refine ⟨?_, isNumeral_iff, hinteger, hfloat, ?_⟩
  · rw [HasNumericHint, hinteger, hfloat]
    constructor
    · intro h
      have hshape : ∃ shape : NumeralShape, shape ≠ .scientific ∧ shape.Has (trim cs) := by
        rcases h with (h | h) | h
        · exact ⟨_, by decide, h⟩
        · exact ⟨_, by decide, h⟩
        · exact ⟨_, by decide, h⟩
      obtain ⟨shape, hne, hhas⟩ := hshape
      have hnumeral := isNumeral_iff.2 ⟨shape, hhas⟩
      exact ⟨⟨DefaultValue.ofText_numeral hnumeral, hnumeral⟩, fun h => hne (hhas.shape_eq h)⟩
    · rintro ⟨⟨-, hnumeral⟩, hnot⟩
      obtain ⟨shape, hhas⟩ := isNumeral_iff.1 hnumeral
      cases shape with
      | hexadecimal => exact Or.inl (Or.inl hhas)
      | whole => exact Or.inl (Or.inr hhas)
      | pointed => exact Or.inr hhas
      | scientific => exact absurd hhas hnot
  · intro h
    exact ⟨DefaultValue.ofText_numeral (isNumeral_iff.2 ⟨_, h⟩), Hint.ofText?_scientific h⟩

/-- Minus a thousand, with an exponent and between blanks. -/
def minusThousand : List Char :=
  " -1E+3 ".toList

/-- It is a constant without a hint, and with a point behind its first digit it has one. -/
theorem numericHint_iff_minusThousand :
    NumeralShape.scientific.Has (trim minusThousand) ∧
      (DefaultValue.ofText minusThousand).kind = .constant ∧ Hint.ofText? minusThousand = none ∧
        Hint.ofText? "-1.E+3".toList = some .float := by
  have hscientific : NumeralShape.scientific.Has (trim minusThousand) :=
    ⟨['-'], "1E+3".toList, by decide +kernel, by simp [IsSign],
      @Unsigned.scientific ['1'] "E+3".toList (by decide +kernel)
        ⟨'E', ['+'], ['3'], rfl, by decide, by simp [IsSign], by decide +kernel⟩⟩
  obtain ⟨hconstant, hnone⟩ := (numericHint_iff minusThousand).2.2.2.2 hscientific
  exact ⟨hscientific, hconstant, hnone, by decide +kernel⟩

end ScriptOutline
