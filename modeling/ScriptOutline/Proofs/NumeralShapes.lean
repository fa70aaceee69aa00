/-
**The shapes of numerals.**

A numeral is hexadecimal, or it is made of digits: alone, with a point, or with an exponent and no
point.  A sign may stand in front of each.  The tests for numerals each accept some of these shapes.

Main definitions:

* `IsSign`, `IsExponent` — what may stand in front of a numeral and at its end;
* `NumeralShape`, `Unsigned`, `NumeralShape.Has` — the four shapes of numerals;
* `isNumeralChar` — the characters that numerals are made of.

Main results:

* `exists_sign_iff` — a sign in front of a text is dropped;
* `isInteger_iff`, `isFloat_iff`, `isNumeral_iff` — the shapes that each test accepts;
* `NumeralShape.Has.shape_eq` — a text has one shape;
* `NumeralShape.Has.head`, `NumeralShape.Has.isNumeralChar` — how a numeral starts and goes on;
* `not_numeral_of_head`, `not_numeral_of_mem` — how a text shows that it is none.
-/

import Mathlib.Data.Bool.AllAny
import Mathlib.Data.List.TakeWhile
import ScriptOutline.Parameter.Literal
import ScriptOutline.Variable.Hint

set_option relaxedAutoImplicit false
set_option autoImplicit false

namespace ScriptOutline

/-! ### The shapes of numerals -/

/-- A sign, or nothing. -/
def IsSign (cs : List Char) : Prop :=
  cs ∈ [[], ['+'], ['-']]

/-- An exponent: its letter, a sign or nothing, and digits. -/
def IsExponent (cs : List Char) : Prop :=
  ∃ mark sign digits, cs = mark :: (sign ++ digits) ∧ mark ∈ ['e', 'E'] ∧ IsSign sign ∧
    isDigits digits = true

/-- What a numeral looks like. -/
inductive NumeralShape where
  | hexadecimal
  | whole
  | pointed
  | scientific
  deriving DecidableEq, Repr

/-- The numerals without a sign. -/
inductive Unsigned : NumeralShape → List Char → Prop where
  | hexadecimal {mark : Char} {digits : List Char} (hmark : mark ∈ ['x', 'X'])
      (hsome : digits ≠ []) (hdigits : ∀ c ∈ digits, isHexDigit c = true) :
      Unsigned .hexadecimal ('0' :: mark :: digits)
  | whole {digits : List Char} (hdigits : isDigits digits = true) : Unsigned .whole digits
  | pointed {whole fraction exponent : List Char}
      (hwhole : ∀ c ∈ whole, isDecimalDigit c = true)
      (hfraction : ∀ c ∈ fraction, isDecimalDigit c = true) (hsome : whole ≠ [] ∨ fraction ≠ [])
      (hexponent : exponent = [] ∨ IsExponent exponent) :
      Unsigned .pointed (whole ++ '.' :: (fraction ++ exponent))
  | scientific {whole exponent : List Char} (hwhole : isDigits whole = true)
      (hexponent : IsExponent exponent) : Unsigned .scientific (whole ++ exponent)

/-- A text is a numeral of a shape. -/
def NumeralShape.Has (shape : NumeralShape) (cs : List Char) : Prop :=
  ∃ sign unsigned, cs = sign ++ unsigned ∧ IsSign sign ∧ Unsigned shape unsigned

/-- A character that numerals are made of. -/
def isNumeralChar (c : Char) : Bool :=
  isDecimalDigit c || isHexDigit c || decide (c ∈ ['+', '-', '.', 'x', 'X'])

/-! ### Signs and digits -/

theorem isDigits_iff {cs : List Char} :
    isDigits cs = true ↔ cs ≠ [] ∧ ∀ c ∈ cs, isDecimalDigit c = true := by
  simp [isDigits]

/-- No mark that a literal starts with, or a numeral goes on with, is a decimal digit. -/
theorem not_mem_of_isDecimalDigit {c : Char} (h : isDecimalDigit c = true) :
    c ∉ ['+', '-', '.', 'e', 'E', '"', '\'', '[', '{'] := by
  have hmarks : ∀ d ∈ ['+', '-', '.', 'e', 'E', '"', '\'', '[', '{'],
      isDecimalDigit d = false :=
    List.all_iff_forall_prop.1 (by decide +kernel)
  intro hc
  rw [hmarks c hc] at h
  exact Bool.false_ne_true h

/-- A sign in front of something that has none itself is the one that is dropped. -/
theorem exists_sign_iff {p : List Char → Prop} (hp : ∀ c rest, p (c :: rest) → c ∉ ['+', '-'])
    {cs : List Char} :
    (∃ sign unsigned, cs = sign ++ unsigned ∧ IsSign sign ∧ p unsigned) ↔ p (dropSign cs) := by
  constructor
  · rintro ⟨sign, unsigned, rfl, hsign, hunsigned⟩
    simp only [IsSign, List.mem_cons, List.not_mem_nil, or_false] at hsign
    rcases hsign with rfl | rfl | rfl
    · cases unsigned with
      | nil => exact hunsigned
      | cons c rest =>
          have hc := hp c rest hunsigned
          simp only [List.mem_cons, List.not_mem_nil, or_false, not_or] at hc
          simpa [dropSign, hc] using hunsigned
    · exact hunsigned
    · exact hunsigned
  · intro h
    cases cs with
    | nil => exact ⟨[], [], rfl, by simp [IsSign], h⟩
    | cons c rest =>
        simp only [dropSign, Bool.or_eq_true, decide_eq_true_eq] at h
        split at h
        · next hc =>
            refine ⟨[c], rest, rfl, ?_, h⟩
            rcases hc with rfl | rfl <;> simp [IsSign]
        · exact ⟨[], c :: rest, rfl, by simp [IsSign], h⟩

/-- Digits are read up to the first character that is none. -/
theorem span_digits {digits rest : List Char} (hdigits : ∀ c ∈ digits, isDecimalDigit c = true)
    (hrest : ∀ c ∈ rest.head?, isDecimalDigit c = false) :
    (digits ++ rest).takeWhile isDecimalDigit = digits ∧
      (digits ++ rest).dropWhile isDecimalDigit = rest := by
  rw [List.takeWhile_append_of_pos hdigits, List.dropWhile_append_of_pos hdigits]
  cases rest with
  | nil => simp
  | cons c rest =>
      have hc : isDecimalDigit c = false := hrest c rfl
      simp [hc]

/-- The digits in front of a text, and what is read after them. -/
theorem exists_digits (cs : List Char) :
    ∃ digits rest, cs = digits ++ rest ∧ (∀ c ∈ digits, isDecimalDigit c = true) ∧
      (∀ c ∈ rest.head?, isDecimalDigit c = false) ∧ cs.takeWhile isDecimalDigit = digits ∧
        cs.dropWhile isDecimalDigit = rest := by
  refine ⟨_, _, List.takeWhile_append_dropWhile.symm, fun c => List.mem_takeWhile_imp, ?_, rfl, rfl⟩
  intro c hc
  have hnot := List.head?_dropWhile_not isDecimalDigit cs
  rw [hc] at hnot
  simpa using hnot

/-! ### The tests for numerals -/

theorem isExponentOrEmpty_iff {cs : List Char} :
    isExponentOrEmpty cs = true ↔ cs = [] ∨ IsExponent cs := by
  have hdigits (c : Char) (rest : List Char) (h : isDigits (c :: rest) = true) :
      c ∉ ['+', '-'] := by
    have hc := not_mem_of_isDecimalDigit ((isDigits_iff.1 h).2 c List.mem_cons_self)
    simp only [List.mem_cons, not_or] at hc
    simp [hc]
  cases cs with
  | nil => simp [isExponentOrEmpty]
  | cons mark rest =>
      have hdrop := @exists_sign_iff (isDigits · = true) hdigits rest
      simp only [isExponentOrEmpty, Bool.and_eq_true, Bool.or_eq_true, decide_eq_true_eq, ← hdrop]
      constructor
      · rintro ⟨hmark, sign, digits, rfl, hsign, hdigits⟩
        exact Or.inr ⟨mark, sign, digits, rfl, by simpa using hmark, hsign, hdigits⟩
      · rintro (hnil | ⟨mark', sign, digits, heq, hmark, hsign, hdigits⟩)
        · exact absurd hnil (List.cons_ne_nil _ _)
        · obtain ⟨rfl, rfl⟩ := List.cons.inj heq
          exact ⟨by simpa using hmark, sign, digits, rfl, hsign, hdigits⟩

theorem IsExponent.head {cs : List Char} (h : IsExponent cs) :
    ∃ mark rest, cs = mark :: rest ∧ mark ∈ ['e', 'E'] := by
  obtain ⟨mark, sign, digits, rfl, hmark, -⟩ := h
  exact ⟨mark, sign ++ digits, rfl, hmark⟩

/-- An exponent does not go on with the digits in front of it. -/
theorem not_digit_of_exponent {cs : List Char} (h : cs = [] ∨ IsExponent cs) :
    ∀ c ∈ cs.head?, isDecimalDigit c = false := by
  rcases h with rfl | h
  · simp
  · obtain ⟨mark, rest, rfl, hmark⟩ := h.head
    intro c hc
    obtain rfl : mark = c := by simpa using hc
    rw [Bool.eq_false_iff]
    intro hdigit
    have hnot := not_mem_of_isDecimalDigit hdigit
    simp only [List.mem_cons, not_or] at hnot
    simp [hnot] at hmark

theorem not_digit_of_point {cs : List Char} :
    ∀ c ∈ ('.' :: cs).head?, isDecimalDigit c = false := by
  simp only [List.head?_cons, Option.mem_some_iff, forall_eq']
  decide +kernel

theorem isHexadecimal_iff {cs : List Char} :
    isHexadecimal cs = true ↔ Unsigned .hexadecimal cs := by
  constructor
  · intro h
    unfold isHexadecimal at h
    split at h
    · next mark digits =>
        simp only [Bool.and_eq_true, Bool.or_eq_true, decide_eq_true_eq, Bool.not_eq_true',
          List.isEmpty_eq_false_iff, List.all_eq_true] at h
        obtain ⟨⟨hmark, hsome⟩, hdigits⟩ := h
        exact .hexadecimal (by simpa using hmark) hsome hdigits
    · exact absurd h Bool.false_ne_true
  · rintro ⟨hmark, hsome, hdigits⟩
    simp only [List.mem_cons, List.not_mem_nil, or_false] at hmark
    simpa [isHexadecimal, hmark, hsome] using hdigits

/-- An unsigned numeral starts with a digit or a point. -/
theorem Unsigned.head {shape : NumeralShape} {cs : List Char} (h : Unsigned shape cs) :
    ∃ c rest, cs = c :: rest ∧ (isDecimalDigit c = true ∨ c = '.') := by
  have hfirst {digits : List Char} (hsome : digits ≠ [])
      (hdigits : ∀ c ∈ digits, isDecimalDigit c = true) (rest : List Char) :
      ∃ c tail, digits ++ rest = c :: tail ∧ (isDecimalDigit c = true ∨ c = '.') := by
    obtain ⟨c, tail, rfl⟩ := List.exists_cons_of_ne_nil hsome
    exact ⟨c, tail ++ rest, rfl, Or.inl (hdigits c List.mem_cons_self)⟩
  cases h with
  | hexadecimal => exact ⟨'0', _, rfl, Or.inl (by decide +kernel)⟩
  | whole hdigits =>
      obtain ⟨hsome, hall⟩ := isDigits_iff.1 hdigits
      rw [← List.append_nil cs]
      exact hfirst hsome hall []
  | @pointed whole fraction exponent hwhole =>
      cases whole with
      | nil => exact ⟨'.', _, rfl, Or.inr rfl⟩
      | cons c whole => exact hfirst (List.cons_ne_nil c whole) hwhole _
  | @scientific whole exponent hwhole hexponent =>
      obtain ⟨hsome, hall⟩ := isDigits_iff.1 hwhole
      exact hfirst hsome hall exponent

section

variable {digits rest : List Char} (hdigits : ∀ c ∈ digits, isDecimalDigit c = true)
  (hrest : ∀ c ∈ rest.head?, isDecimalDigit c = false)

include hdigits hrest

/-- There is one way to take the digits off a text. -/
theorem digits_inj {digits' rest' : List Char}
    (hdigits' : ∀ c ∈ digits', isDecimalDigit c = true)
    (hrest' : ∀ c ∈ rest'.head?, isDecimalDigit c = false)
    (h : digits ++ rest = digits' ++ rest') : digits = digits' ∧ rest = rest' := by
  obtain ⟨htake, hdrop⟩ := span_digits hdigits hrest
  obtain ⟨htake', hdrop'⟩ := span_digits hdigits' hrest'
  rw [h] at htake hdrop
  exact ⟨htake.symm.trans htake', hdrop.symm.trans hdrop'⟩

theorem unsigned_whole_iff : Unsigned .whole (digits ++ rest) ↔ digits ≠ [] ∧ rest = [] := by
  constructor
  · intro h
    generalize hcs : digits ++ rest = cs at h
    cases h with
    | whole hall =>
        obtain ⟨hsome, hall⟩ := isDigits_iff.1 hall
        obtain ⟨rfl, rfl⟩ := digits_inj hdigits hrest hall (by simp)
          (hcs.trans (List.append_nil cs).symm)
        exact ⟨hsome, rfl⟩
  · rintro ⟨hsome, rfl⟩
    rw [List.append_nil]
    exact .whole (isDigits_iff.2 ⟨hsome, hdigits⟩)

theorem unsigned_scientific_iff :
    Unsigned .scientific (digits ++ rest) ↔ digits ≠ [] ∧ IsExponent rest := by
  constructor
  · intro h
    generalize hcs : digits ++ rest = cs at h
    cases h with
    | scientific hwhole hexponent =>
        obtain ⟨hsome, hall⟩ := isDigits_iff.1 hwhole
        obtain ⟨rfl, rfl⟩ := digits_inj hdigits hrest hall
          (not_digit_of_exponent (Or.inr hexponent)) hcs
        exact ⟨hsome, hexponent⟩
  · rintro ⟨hsome, hexponent⟩
    exact .scientific (isDigits_iff.2 ⟨hsome, hdigits⟩) hexponent

theorem unsigned_pointed_iff :
    Unsigned .pointed (digits ++ rest) ↔
      ∃ after, rest = '.' :: after ∧ (digits ≠ [] ∨ after.takeWhile isDecimalDigit ≠ []) ∧
        isExponentOrEmpty (after.dropWhile isDecimalDigit) = true := by
  constructor
  · intro h
    generalize hcs : digits ++ rest = cs at h
    cases h with
    | @pointed whole fraction exponent hwhole hfraction hsome hexponent =>
        obtain ⟨rfl, rfl⟩ := digits_inj hdigits hrest hwhole not_digit_of_point hcs
        obtain ⟨htake, hdrop⟩ := span_digits hfraction (not_digit_of_exponent hexponent)
        exact ⟨_, rfl, by rwa [htake], by rwa [hdrop, isExponentOrEmpty_iff]⟩
  · rintro ⟨after, rfl, hsome, hexponent⟩
    obtain ⟨fraction, exponent, rfl, hfraction, -, htake, hdrop⟩ := exists_digits after
    rw [htake] at hsome
    rw [hdrop, isExponentOrEmpty_iff] at hexponent
    exact .pointed hdigits hfraction hsome hexponent

end

/-- The test for unsigned decimal numerals accepts the three shapes that are not hexadecimal. -/
theorem isDecimalNumeral_iff {cs : List Char} :
    isDecimalNumeral cs = true ↔
      Unsigned .whole cs ∨ Unsigned .pointed cs ∨ Unsigned .scientific cs := by
  obtain ⟨digits, rest, rfl, hdigits, hrest, htake, hdrop⟩ := exists_digits cs
  rw [unsigned_whole_iff hdigits hrest, unsigned_pointed_iff hdigits hrest,
    unsigned_scientific_iff hdigits hrest]
  unfold isDecimalNumeral
  simp only [htake, hdrop]
  split
  · next after =>
      have hexponent : ¬IsExponent ('.' :: after) := by
        intro h
        obtain ⟨mark, tail, heq, hmark⟩ := h.head
        obtain ⟨rfl, -⟩ := List.cons.inj heq
        exact absurd hmark (by decide)
      simp [hexponent]
  · next hpoint =>
      have hnot : ¬∃ after, rest = '.' :: after ∧
          (digits ≠ [] ∨ after.takeWhile isDecimalDigit ≠ []) ∧
            isExponentOrEmpty (after.dropWhile isDecimalDigit) = true := by
        rintro ⟨after, rfl, -⟩
        exact hpoint after rfl
      simp only [hnot, false_or]
      simp only [Bool.and_eq_true, isExponentOrEmpty_iff, Bool.not_eq_true',
        List.isEmpty_eq_false_iff, and_or_left]

namespace NumeralShape

theorem has_iff {shape : NumeralShape} {cs : List Char} :
    shape.Has cs ↔ Unsigned shape (dropSign cs) := by
  refine exists_sign_iff fun c rest h hsign => ?_
  obtain ⟨c', rest', heq, hc⟩ := h.head
  obtain ⟨rfl, rfl⟩ := List.cons.inj heq
  rcases hc with hdigit | rfl
  · have hnot := not_mem_of_isDecimalDigit hdigit
    simp only [List.mem_cons, not_or] at hnot
    simp [hnot] at hsign
  · exact absurd hsign (by decide)

/-- The shape of an unsigned numeral, told from what stands behind its first digits. -/
def ofMark : Option Char → NumeralShape
  | none => whole
  | some c => if c = '.' then pointed else if c ∈ ['e', 'E'] then scientific else hexadecimal

theorem ofMark_eq {shape : NumeralShape} {cs : List Char} (h : Unsigned shape cs) :
    ofMark (cs.dropWhile isDecimalDigit).head? = shape := by
  cases h with
  | @hexadecimal mark digits hmark =>
      have hfirst : ∀ c ∈ ['0'], isDecimalDigit c = true :=
        List.all_iff_forall_prop.1 (by decide +kernel)
      have hnext : ∀ c ∈ ['x', 'X'], isDecimalDigit c = false ∧ ofMark (some c) = hexadecimal :=
        List.all_iff_forall_prop.1 (by decide +kernel)
      obtain ⟨hdigit, hshape⟩ := hnext mark hmark
      have hrest : ∀ c ∈ (mark :: digits).head?, isDecimalDigit c = false := by simpa using hdigit
      have hspan := span_digits hfirst hrest
      rw [List.singleton_append] at hspan
      rw [hspan.2, List.head?_cons, hshape]
  | whole hdigits =>
      rw [List.dropWhile_eq_nil_iff.2 (isDigits_iff.1 hdigits).2]
      rfl
  | pointed hwhole =>
      rw [(span_digits hwhole not_digit_of_point).2]
      rfl
  | scientific hwhole hexponent =>
      rw [(span_digits (isDigits_iff.1 hwhole).2 (not_digit_of_exponent (Or.inr hexponent))).2]
      obtain ⟨mark, rest, rfl, hmark⟩ := hexponent.head
      have hletters : ∀ c ∈ ['e', 'E'], ofMark (some c) = scientific :=
        List.all_iff_forall_prop.1 (by decide)
      exact hletters mark hmark

/-- A text is a numeral of one shape. -/
theorem Has.shape_eq {shape shape' : NumeralShape} {cs : List Char} (h : shape.Has cs)
    (h' : shape'.Has cs) : shape = shape' :=
  (ofMark_eq (has_iff.1 h)).symm.trans (ofMark_eq (has_iff.1 h'))

/-- A numeral starts with a digit, a sign or a point. -/
theorem Has.head {shape : NumeralShape} {cs : List Char} (h : shape.Has cs) :
    ∃ c rest, cs = c :: rest ∧ (isDecimalDigit c = true ∨ c ∈ ['+', '-', '.']) := by
  obtain ⟨sign, unsigned, rfl, hsign, hunsigned⟩ := h
  simp only [IsSign, List.mem_cons, List.not_mem_nil, or_false] at hsign
  rcases hsign with rfl | rfl | rfl
  · obtain ⟨c, rest, rfl, hc⟩ := hunsigned.head
    exact ⟨c, rest, rfl, hc.imp_right fun hpoint => by simp [hpoint]⟩
  · exact ⟨'+', unsigned, rfl, Or.inr (by decide)⟩
  · exact ⟨'-', unsigned, rfl, Or.inr (by decide)⟩

end NumeralShape

theorem isInteger_iff {cs : List Char} : isInteger cs = true ↔
    NumeralShape.hexadecimal.Has cs ∨ NumeralShape.whole.Has cs := by
  rw [NumeralShape.has_iff, NumeralShape.has_iff, ← isHexadecimal_iff]
  have hwhole : isDigits (dropSign cs) = true ↔ Unsigned .whole (dropSign cs) :=
    ⟨.whole, fun h => by cases h; assumption⟩
  rw [isInteger, Bool.or_eq_true, hwhole]

theorem isFloat_iff {cs : List Char} : isFloat cs = true ↔ NumeralShape.pointed.Has cs := by
  rw [NumeralShape.has_iff]
  obtain ⟨digits, rest, heq, hdigits, hrest, htake, hdrop⟩ := exists_digits (dropSign cs)
  rw [heq, unsigned_pointed_iff hdigits hrest]
  unfold isFloat
  simp only [htake, hdrop]
  split
  · simp
  · next hpoint =>
      refine iff_of_false Bool.false_ne_true ?_
      rintro ⟨after, rfl, -⟩
      exact hpoint after rfl

theorem isNumeral_iff {cs : List Char} :
    isNumeral cs = true ↔ ∃ shape : NumeralShape, shape.Has cs := by
  simp only [isNumeral, Bool.or_eq_true, isHexadecimal_iff, isDecimalNumeral_iff,
    NumeralShape.has_iff]
  constructor
  · rintro (h | h | h | h)
    · exact ⟨_, h⟩
    · exact ⟨_, h⟩
    · exact ⟨_, h⟩
    · exact ⟨_, h⟩
  · rintro ⟨shape, h⟩
    cases shape with
    | hexadecimal => exact Or.inl h
    | whole => exact Or.inr (Or.inl h)
    | pointed => exact Or.inr (Or.inr (Or.inl h))
    | scientific => exact Or.inr (Or.inr (Or.inr h))

/-! ### The characters of numerals -/

theorem isNumeralChar_of_isDecimalDigit {c : Char} (h : isDecimalDigit c = true) :
    isNumeralChar c = true := by
  simp [isNumeralChar, h]

theorem IsSign.isNumeralChar {cs : List Char} (h : IsSign cs) :
    ∀ c ∈ cs, isNumeralChar c = true := by
  simp only [IsSign, List.mem_cons, List.not_mem_nil, or_false] at h
  rcases h with rfl | rfl | rfl
  · simp
  · simp [ScriptOutline.isNumeralChar]
  · simp [ScriptOutline.isNumeralChar]

theorem IsExponent.isNumeralChar {cs : List Char} (h : IsExponent cs) :
    ∀ c ∈ cs, isNumeralChar c = true := by
  obtain ⟨mark, sign, digits, rfl, hmark, hsign, hdigits⟩ := h
  have hletters : ∀ c ∈ ['e', 'E'], ScriptOutline.isNumeralChar c = true :=
    List.all_iff_forall_prop.1 (by decide +kernel)
  rw [List.forall_mem_cons, List.forall_mem_append]
  exact ⟨hletters mark hmark, hsign.isNumeralChar, fun c hc =>
    isNumeralChar_of_isDecimalDigit ((isDigits_iff.1 hdigits).2 c hc)⟩

theorem Unsigned.isNumeralChar {shape : NumeralShape} {cs : List Char} (h : Unsigned shape cs) :
    ∀ c ∈ cs, isNumeralChar c = true := by
  cases h with
  | @hexadecimal mark digits hmark hsome hdigits =>
      have hmarks : ∀ c ∈ ['x', 'X'], ScriptOutline.isNumeralChar c = true :=
        List.all_iff_forall_prop.1 (by decide +kernel)
      rw [List.forall_mem_cons, List.forall_mem_cons]
      refine ⟨by decide +kernel, hmarks mark hmark, fun c hc => ?_⟩
      simp [ScriptOutline.isNumeralChar, hdigits c hc]
  | whole hdigits =>
      intro c hc
      exact isNumeralChar_of_isDecimalDigit ((isDigits_iff.1 hdigits).2 c hc)
  | pointed hwhole hfraction hsome hexponent =>
      rw [List.forall_mem_append, List.forall_mem_cons, List.forall_mem_append]
      refine ⟨fun c hc => isNumeralChar_of_isDecimalDigit (hwhole c hc), by decide +kernel,
        fun c hc => isNumeralChar_of_isDecimalDigit (hfraction c hc), ?_⟩
      rcases hexponent with rfl | hexponent
      · simp
      · exact hexponent.isNumeralChar
  | scientific hwhole hexponent =>
      rw [List.forall_mem_append]
      exact ⟨fun c hc => isNumeralChar_of_isDecimalDigit ((isDigits_iff.1 hwhole).2 c hc),
        hexponent.isNumeralChar⟩

/-- A numeral is made of the characters of numerals. -/
theorem NumeralShape.Has.isNumeralChar {shape : NumeralShape} {cs : List Char}
    (h : shape.Has cs) : ∀ c ∈ cs, isNumeralChar c = true := by
  obtain ⟨sign, unsigned, rfl, hsign, hunsigned⟩ := h
  rw [List.forall_mem_append]
  exact ⟨hsign.isNumeralChar, hunsigned.isNumeralChar⟩

/-! ### Texts that are no numerals -/

theorem not_numeral_of_forall {cs : List Char} (h : ∀ shape : NumeralShape, ¬shape.Has cs) :
    isInteger cs = false ∧ isFloat cs = false := by
  constructor
  · rw [Bool.eq_false_iff, ne_eq, isInteger_iff, not_or]
    exact ⟨h .hexadecimal, h .whole⟩
  · rw [Bool.eq_false_iff, ne_eq, isFloat_iff]
    exact h .pointed

/-- A text that starts with no digit, no sign and no point is no numeral. -/
theorem not_numeral_of_head {c : Char} (hdigit : isDecimalDigit c = false)
    (hmark : c ∉ ['+', '-', '.']) (rest : List Char) :
    isInteger (c :: rest) = false ∧ isFloat (c :: rest) = false := by
  refine not_numeral_of_forall fun shape hhas => ?_
  obtain ⟨c', rest', heq, hhead⟩ := hhas.head
  obtain ⟨rfl, -⟩ := List.cons.inj heq
  rcases hhead with hhead | hhead
  · rw [hdigit] at hhead
    exact Bool.false_ne_true hhead
  · exact hmark hhead

/-- A text with a character that is in no numeral is none. -/
theorem not_numeral_of_mem {cs : List Char} {c : Char} (hc : isNumeralChar c = false)
    (h : c ∈ cs) : isInteger cs = false ∧ isFloat cs = false := by
  refine not_numeral_of_forall fun shape hhas => ?_
  rw [hhas.isNumeralChar c h] at hc
  exact Bool.noConfusion hc

end ScriptOutline
