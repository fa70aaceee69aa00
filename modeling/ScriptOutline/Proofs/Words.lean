/-
**What the readers of words take off a text.**

Each reader takes a prefix off a text and hands back the rest.  The lemmas here say what the prefix
is made of, and in particular that it holds no quote, so that reading words never enters a string
literal.

Main definitions:

* `isQuoteMark` — whether a character opens a string literal;
* `Plain` — a text without such characters.

Main results:

* `identifier?_spec`, `trimStart_spec`, `afterBlanks?_spec`, `afterWord?_spec` — the prefix that
  each reader takes off;
* `plain_of_identifier`, `plain_of_blanks`, `plain_of_word` — none of them holds a quote.
-/

import Mathlib.Data.List.TakeWhile
import ScriptOutline.Text.Blank
import ScriptOutline.Text.Word

set_option relaxedAutoImplicit false
set_option autoImplicit false

namespace ScriptOutline

/-- Whether a character opens a string literal. -/
def isQuoteMark (c : Char) : Bool :=
  c = '"' || c = '\''

/-- No character of a text opens a string literal. -/
def Plain (cs : List Char) : Prop :=
  ∀ c ∈ cs, isQuoteMark c = false

theorem plain_nil : Plain [] := by
  intro c hc
  simp at hc

theorem Plain.append {cs ds : List Char} (hc : Plain cs) (hd : Plain ds) : Plain (cs ++ ds) := by
  intro c h
  rcases List.mem_append.1 h with h | h
  · exact hc c h
  · exact hd c h

theorem plain_of_all {cs : List Char} (h : (cs.all fun c => !isQuoteMark c) = true) : Plain cs := by
  intro c hc
  simpa using List.all_eq_true.1 h c hc

/-- A test that fails on both quotes holds of plain texts only. -/
theorem plain_of_forall {p : Char → Bool} (hdouble : p '"' = false) (hsingle : p '\'' = false)
    {cs : List Char} (h : ∀ c ∈ cs, p c = true) : Plain cs := by
  intro c hc
  have hp := h c hc
  simp only [isQuoteMark, Bool.or_eq_false_iff, decide_eq_false_iff_not]
  constructor
  · rintro rfl
    rw [hdouble] at hp
    exact Bool.noConfusion hp
  · rintro rfl
    rw [hsingle] at hp
    exact Bool.noConfusion hp

/-! ### Blanks -/

theorem plain_of_blanks {cs : List Char} (h : ∀ c ∈ cs, isBlank c = true) : Plain cs :=
  plain_of_forall (by decide) (by decide) h

/-- A text is its leading blanks and what is left without them. -/
theorem trimStart_spec (cs : List Char) :
    ∃ blanks, cs = blanks ++ trimStart cs ∧ ∀ c ∈ blanks, isBlank c = true :=
  ⟨cs.takeWhile isBlank, List.takeWhile_append_dropWhile.symm, fun _ => List.mem_takeWhile_imp⟩

theorem afterBlanks?_spec {cs rest : List Char} (h : afterBlanks? cs = some rest) :
    ∃ blanks, cs = blanks ++ rest ∧ ∀ c ∈ blanks, isBlank c = true := by
  cases cs with
  | nil => simp [afterBlanks?] at h
  | cons c tail =>
      simp only [afterBlanks?] at h
      split at h
      · next hc =>
          obtain ⟨blanks, htail, hblanks⟩ := trimStart_spec tail
          simp only [Option.some.injEq] at h
          rw [h] at htail
          refine ⟨c :: blanks, by rw [htail]; rfl, ?_⟩
          intro d hd
          rcases List.mem_cons.1 hd with rfl | hd
          · exact hc
          · exact hblanks d hd
      · simp at h

/-! ### Identifiers -/

theorem isWordChar_of_isIdentifierStart {c : Char} (h : isIdentifierStart c = true) :
    isWordChar c = true := by
  simp only [isIdentifierStart, Bool.and_eq_true] at h
  exact h.1

theorem isWordChar_of_mem {name : List Char} (h : isIdentifier name = true) {c : Char}
    (hc : c ∈ name) : isWordChar c = true := by
  cases name with
  | nil => simp at hc
  | cons first rest =>
      simp only [isIdentifier, Bool.and_eq_true, List.all_eq_true] at h
      rcases List.mem_cons.1 hc with rfl | hc
      · exact isWordChar_of_isIdentifierStart h.1
      · exact h.2 c hc

theorem plain_of_identifier {name : List Char} (h : isIdentifier name = true) : Plain name :=
  plain_of_forall (p := isWordChar) (by decide) (by decide) fun _ hc => isWordChar_of_mem h hc

/-- The identifier at the start of a text is one, and ends where no word goes on. -/
theorem identifier?_spec {cs name rest : List Char} (h : identifier? cs = some (name, rest)) :
    cs = name ++ rest ∧ isIdentifier name = true ∧ rest.head?.any isWordChar = false := by
  refine ⟨identifier?_eq_some h, ?_⟩
  cases cs with
  | nil => simp [identifier?] at h
  | cons c tail =>
      simp only [identifier?] at h
      split at h
      · next hc =>
          simp only [Option.some.injEq, Prod.mk.injEq] at h
          obtain ⟨rfl, rfl⟩ := h
          constructor
          · simp only [isIdentifier, hc, Bool.true_and, List.all_eq_true]
            intro d hd
            exact List.mem_takeWhile_imp hd
          · have hhead := List.head?_dropWhile_not isWordChar tail
            cases hd : (tail.dropWhile isWordChar).head? with
            | none => rfl
            | some d =>
                rw [hd] at hhead
                simpa using hhead
      · simp at h

/-! ### Words up to case -/

theorem foldsTo_quote {letter c : Char} (h : foldsTo letter c = true)
    (hquote : isQuoteMark c = true) : letter = c := by
  simp only [isQuoteMark, Bool.or_eq_true, decide_eq_true_eq] at hquote
  simp only [foldsTo, Bool.or_eq_true, Bool.and_eq_true, decide_eq_true_eq] at h
  rcases hquote with rfl | rfl
  · rcases h with (h | ⟨-, h⟩) | ⟨-, h⟩
    · exact h.symm
    · exact absurd h (by decide)
    · exact absurd h (by decide)
  · rcases h with (h | ⟨-, h⟩) | ⟨-, h⟩
    · exact h.symm
    · exact absurd h (by decide)
    · exact absurd h (by decide)

/-- A word at the start of a text is as long as the word it is compared with. -/
theorem afterWord?_spec {word cs rest : List Char} (h : afterWord? word cs = some rest) :
    ∃ taken, cs = taken ++ rest ∧ taken.length = word.length ∧
      ∀ c ∈ taken, ∃ letter ∈ word, foldsTo letter c = true := by
  induction word generalizing cs with
  | nil =>
      simp only [afterWord?, Option.some.injEq] at h
      exact ⟨[], by simp [h], rfl, by simp⟩
  | cons letter word ih =>
      cases cs with
      | nil => simp [afterWord?] at h
      | cons c tail =>
          simp only [afterWord?] at h
          split at h
          · next hc =>
              obtain ⟨taken, rfl, hlength, htaken⟩ := ih h
              refine ⟨c :: taken, rfl, by simp [hlength], ?_⟩
              intro d hd
              rcases List.mem_cons.1 hd with rfl | hd
              · exact ⟨letter, List.mem_cons_self, hc⟩
              · obtain ⟨l, hl, hfolds⟩ := htaken d hd
                exact ⟨l, List.mem_cons_of_mem letter hl, hfolds⟩
          · simp at h

theorem plain_of_word {word taken : List Char} (hword : Plain word)
    (h : ∀ c ∈ taken, ∃ letter ∈ word, foldsTo letter c = true) : Plain taken := by
  intro c hc
  obtain ⟨letter, hletter, hfolds⟩ := h c hc
  cases hquote : isQuoteMark c with
  | false => rfl
  | true =>
      have hplain := hword letter hletter
      rw [foldsTo_quote hfolds hquote, hquote] at hplain
      exact hplain

end ScriptOutline
