/-
**Reading texts that are put together from words and blanks.**

No blank is a word character, so that a name ends where blanks start, and the readers of names and
marks take a text apart just where it was put together.

Main results:

* `not_isWordChar_of_isBlank`, `not_isAlphanumeric_of_isBlank` — blanks are in no word;
* `trimStart_blanks`, `trimStart_of_head` — taking leading blanks off;
* `identifier?_append_of_identifier` — a name is read up to where no word goes on;
* `afterAssign?_mark` — an assignment mark is found behind blanks.
-/

import ScriptOutline.Proofs.Words
import ScriptOutline.Variable.Statement

set_option relaxedAutoImplicit false
set_option autoImplicit false

namespace ScriptOutline

/-! ### Blanks -/

/-- A property of every code point of a table holds of every character in it. -/
theorem CodePoints.forall_of_has {table : CodePoints} {p : Char → Bool}
    (h : (table.all fun range =>
      (List.range' range.1 (range.2 + 1 - range.1)).all fun n => p (Char.ofNat n)) = true)
    {c : Char} (hc : table.has c = true) : p c = true := by
  obtain ⟨range, hrange, hlow, hhigh⟩ := exists_of_has hc
  have hmem : c.toNat ∈ List.range' range.1 (range.2 + 1 - range.1) := by
    rw [List.mem_range'_1]
    omega
  have hp := List.all_eq_true.1 (List.all_eq_true.1 h range hrange) c.toNat hmem
  rwa [Char.ofNat_toNat] at hp

theorem not_isWordChar_of_isBlank {c : Char} (h : isBlank c = true) : isWordChar c = false := by
  have hnot := CodePoints.forall_of_has (p := fun c => !isWordChar c) (by decide +kernel) h
  simpa using hnot

theorem not_isAlphanumeric_of_isBlank {c : Char} (h : isBlank c = true) :
    isAlphanumeric c = false := by
  have hnot := CodePoints.forall_of_has (p := fun c => !isAlphanumeric c) (by decide +kernel) h
  simpa using hnot

theorem not_isBlank_of_isWordChar {c : Char} (h : isWordChar c = true) : isBlank c = false := by
  cases hblank : isBlank c with
  | false => rfl
  | true =>
      rw [not_isWordChar_of_isBlank hblank] at h
      exact Bool.noConfusion h

/-- No blanks at all are blanks. -/
theorem isBlank_of_mem_nil : ∀ c ∈ ([] : List Char), isBlank c = true :=
  List.forall_mem_nil _

theorem isBlank_of_mem_space : ∀ c ∈ [' '], isBlank c = true :=
  List.forall_mem_singleton.2 (by decide)

/-- Leading blanks are taken off together. -/
theorem trimStart_blanks {blanks : List Char} (h : ∀ c ∈ blanks, isBlank c = true)
    (rest : List Char) : trimStart (blanks ++ rest) = trimStart rest :=
  List.dropWhile_append_of_pos h

/-- Nothing is taken off a text that starts with no blank. -/
theorem trimStart_of_head {cs : List Char} (h : ∀ c ∈ cs.head?, isBlank c = false) :
    trimStart cs = cs := by
  cases cs with
  | nil => rfl
  | cons c rest => simp [trimStart, h c rfl]

/-- The last character of a text that follows another, or the one before it. -/
theorem getLast?_cons_or (c : Char) (cs : List Char) (prev : Option Char) :
    ((c :: cs).getLast?).or prev = cs.getLast?.or (some c) := by
  rw [List.getLast?_cons]
  cases cs.getLast? with
  | none => rfl
  | some d => rfl

/-! ### Names -/

/-- The first character of an identifier starts one. -/
theorem exists_cons_of_isIdentifier {name : List Char} (h : isIdentifier name = true) :
    ∃ c rest, name = c :: rest ∧ isIdentifierStart c = true ∧
      ∀ d ∈ rest, isWordChar d = true := by
  cases name with
  | nil => exact Bool.noConfusion h
  | cons c rest =>
      simp only [isIdentifier, Bool.and_eq_true, List.all_eq_true] at h
      exact ⟨c, rest, rfl, h.1, h.2⟩

/-- Nothing is taken off in front of a name. -/
theorem trimStart_identifier {name : List Char} (h : isIdentifier name = true)
    (rest : List Char) : trimStart (name ++ rest) = name ++ rest := by
  obtain ⟨c, tail, rfl, hc, -⟩ := exists_cons_of_isIdentifier h
  refine trimStart_of_head ?_
  rintro d ⟨⟩
  exact not_isBlank_of_isWordChar (isWordChar_of_isIdentifierStart hc)

/-- A name is read up to where no word goes on. -/
theorem identifier?_append_of_identifier {name rest : List Char} (h : isIdentifier name = true)
    (hrest : rest.head?.any isWordChar = false) :
    identifier? (name ++ rest) = some (name, rest) := by
  obtain ⟨c, tail, rfl, hc, htail⟩ := exists_cons_of_isIdentifier h
  have hstop : rest.takeWhile isWordChar = [] ∧ rest.dropWhile isWordChar = rest := by
    cases rest with
    | nil => exact ⟨rfl, rfl⟩
    | cons d rest =>
        have hd : isWordChar d = false := by simpa using hrest
        simp [hd]
  simp only [List.cons_append, identifier?, hc, if_true, List.takeWhile_append_of_pos htail,
    List.dropWhile_append_of_pos htail, hstop, List.append_nil]

/-! ### Assignment marks -/

/-- No word goes on with blanks and an assignment mark. -/
theorem not_isWordChar_head_of_mark {gap : List Char} (h : ∀ c ∈ gap, isBlank c = true)
    (rest : List Char) : (gap ++ ':' :: rest).head?.any isWordChar = false := by
  cases gap with
  | nil => exact (by decide : isWordChar ':' = false)
  | cons c gap => simpa using not_isWordChar_of_isBlank (h c List.mem_cons_self)

/-- An assignment mark is found behind blanks. -/
theorem afterAssign?_mark {gap : List Char} (h : ∀ c ∈ gap, isBlank c = true)
    (rest : List Char) : afterAssign? (gap ++ ':' :: '=' :: rest) = some rest := by
  have hmark : trimStart (':' :: '=' :: rest) = ':' :: '=' :: rest := by
    refine trimStart_of_head ?_
    rintro c ⟨⟩
    decide
  simp only [afterAssign?, trimStart_blanks h, hmark]

/-- What follows an assignment mark is found behind blanks and the mark. -/
theorem afterAssign?_eq_some {cs rest : List Char} (h : afterAssign? cs = some rest) :
    ∃ gap, cs = gap ++ ':' :: '=' :: rest ∧ ∀ c ∈ gap, isBlank c = true := by
  obtain ⟨gap, hcs, hgap⟩ := trimStart_spec cs
  refine ⟨gap, ?_, hgap⟩
  unfold afterAssign? at h
  split at h
  · next heq =>
      simp only [Option.some.injEq] at h
      rw [hcs, heq, h]
  · simp at h

end ScriptOutline
