/-
**When two names are the same.**

Names are compared without regard to case, but not everywhere in the same way.  The variables of a
body and the check for repeated parameters compare names in small letters, of any script; the
look-up of a parameter knows the letters A to Z only.  It is the stricter of the two: what it takes
for the same has the same small letters, whatever stands around the letters, but it tells apart
names that differ in the case of another letter.

Main definitions:

* `SameBesidesLetters` — two names differ at most in which of the letters A to Z they have;
* `HasBasicCapitals` — lower-casing changes the letters A to Z of a name only.

Main results:

* `lowercaseChars_map_toLower` — small letters do not depend on the case of the letters A to Z;
* `asciiLowercase_eq_iff` — the look-up asks for the same small letters and for more;
* `hasBasicCapitals_of_ascii` — the capitals of an ASCII name are basic ones;
* `mem_findVariables_iff`, `repeatedParameters_ne_nil_iff` — where small letters are compared;
* `parameter?_beside_caseless` — **a parameter is found by a name just if it is the same in small
  letters and differs from it in the letters A to Z only**;
* `accentedParameter_not_found` — the parameter `É` is not found as `é`.
-/

import ScriptOutline.Proofs.ChainLines
import ScriptOutline.Proofs.LintVerdict
import ScriptOutline.Proofs.RecordOrder
import ScriptOutline.Proofs.SmallLetters
import ScriptOutline.Proofs.VariableRanking

set_option relaxedAutoImplicit false
set_option autoImplicit false

namespace ScriptOutline

/-! ### The letters A to Z -/

theorem toLower_of_not_isAlpha {c : Char} (h : ¬c.isAlpha = true) : c.toLower = c :=
  dif_neg fun hupper => h (Bool.or_eq_true_iff.2 (Or.inl (decide_eq_true hupper)))

/-- An ASCII character has one small letter, in any place. -/
theorem lowercaseAt_of_ascii {c : Char} (h : c.toNat < 128) (before after : List Char) :
    lowercaseAt before c after = [c.toLower] := by
  have hdotted : c ≠ 'İ' := by
    rintro rfl
    exact absurd h (by decide)
  have hsigma : c ≠ 'Σ' := by
    rintro rfl
    exact absurd h (by decide)
  simp [lowercaseAt, hdotted, hsigma, lowercaseChar_of_ascii h]

theorem lowercaseAt_of_isAlpha {c : Char} (h : c.isAlpha = true) (before after : List Char) :
    lowercaseAt before c after = [c.toLower] := by
  have hc := forall_of_isAlpha (p := fun c => decide (c.toNat < 128)) (by decide +kernel) h
  exact lowercaseAt_of_ascii (of_decide_eq_true hc) before after

/-- The case of a letter from A to Z is not seen from the characters around it. -/
theorem toLower_spec (c : Char) :
    c.toLower.isAlpha = c.isAlpha ∧ c.toLower.toLower = c.toLower ∧
      cased.has c.toLower = cased.has c ∧ caseIgnorable.has c.toLower = caseIgnorable.has c := by
  by_cases h : c.isAlpha = true
  · have hc := forall_of_isAlpha (p := fun c => decide (c.toLower.isAlpha = c.isAlpha ∧
      c.toLower.toLower = c.toLower ∧ cased.has c.toLower = cased.has c ∧
        caseIgnorable.has c.toLower = caseIgnorable.has c)) (by decide +kernel) h
    exact of_decide_eq_true hc
  · simp [toLower_of_not_isAlpha h]

@[simp] theorem meetsCased_map_toLower (cs : List Char) :
    meetsCased (cs.map Char.toLower) = meetsCased cs := by
  induction cs with
  | nil => rfl
  | cons c rest ih =>
      obtain ⟨-, -, hcased, hignorable⟩ := toLower_spec c
      simp only [meetsCased] at ih
      simp only [meetsCased, List.map_cons, List.dropWhile_cons, hignorable]
      by_cases h : caseIgnorable.has c = true
      · simpa only [h, if_true] using ih
      · simpa [h] using hcased

@[simp] theorem lowercaseAt_map_toLower (before : List Char) (c : Char) (after : List Char) :
    lowercaseAt (before.map Char.toLower) c.toLower (after.map Char.toLower) =
      lowercaseAt before c after := by
  by_cases h : c.isAlpha = true
  · obtain ⟨halpha, hlower, -⟩ := toLower_spec c
    rw [lowercaseAt_of_isAlpha h, lowercaseAt_of_isAlpha (halpha.trans h), hlower]
  · simp [lowercaseAt, toLower_of_not_isAlpha h]

theorem lowercaseAfter_map_toLower (before cs : List Char) :
    lowercaseAfter (before.map Char.toLower) (cs.map Char.toLower) = lowercaseAfter before cs := by
  induction cs generalizing before with
  | nil => rfl
  | cons c rest ih =>
      rw [List.map_cons, lowercaseAfter, lowercaseAfter, lowercaseAt_map_toLower,
        ← List.map_cons, ih]

/-- The small letters of a text do not depend on the case of its letters A to Z. -/
theorem lowercaseChars_map_toLower (cs : List Char) :
    lowercaseChars (cs.map Char.toLower) = lowercaseChars cs :=
  lowercaseAfter_map_toLower [] cs

/-! ### The two comparisons -/

/-- Two characters are one, or they are both letters from A to Z. -/
def SameOrLetters (c d : Char) : Prop :=
  c = d ∨ c.isAlpha = true ∧ d.isAlpha = true

instance (c d : Char) : Decidable (SameOrLetters c d) :=
  inferInstanceAs (Decidable (_ ∨ _))

/-- Two names have the same characters where they have no letters from A to Z. -/
def SameBesidesLetters (a b : String) : Prop :=
  List.Forall₂ SameOrLetters a.toList b.toList

instance (a b : String) : Decidable (SameBesidesLetters a b) :=
  inferInstanceAs (Decidable (List.Forall₂ _ _ _))

theorem sameOrLetters_of_toLower_eq {c d : Char} (h : c.toLower = d.toLower) :
    SameOrLetters c d := by
  have halpha : c.isAlpha = d.isAlpha := by
    rw [← (toLower_spec c).1, h, (toLower_spec d).1]
  by_cases hc : c.isAlpha = true
  · exact Or.inr ⟨hc, halpha ▸ hc⟩
  · left
    rw [← toLower_of_not_isAlpha hc, h, toLower_of_not_isAlpha (halpha ▸ hc)]

/-- Characters that are the same, or letters, have as many small letters in any two places. -/
theorem length_lowercaseAt {c d : Char} (h : SameOrLetters c d) (before after before' after' :
    List Char) :
    (lowercaseAt before c after).length = (lowercaseAt before' d after').length := by
  rcases h with rfl | ⟨hc, hd⟩
  · unfold lowercaseAt
    split
    · rfl
    · split <;> split <;> rfl
  · rw [lowercaseAt_of_isAlpha hc, lowercaseAt_of_isAlpha hd]
    rfl

/-- Texts with the same small letters that are the same besides letters differ in case only. -/
theorem map_toLower_eq_of_lowercaseAfter_eq {cs ds : List Char}
    (h : List.Forall₂ SameOrLetters cs ds) {before before' : List Char}
    (heq : lowercaseAfter before cs = lowercaseAfter before' ds) :
    cs.map Char.toLower = ds.map Char.toLower := by
  -- what came before differs as well, which a final sigma sees, so it is any two texts here
  induction h generalizing before before' with
  | nil => rfl
  | @cons c d cs ds hcd _ ih =>
      obtain ⟨hhead, htail⟩ := List.append_inj heq (length_lowercaseAt hcd _ _ _ _)
      rw [List.map_cons, List.map_cons, ih htail]
      rcases hcd with rfl | ⟨hc, hd⟩
      · rfl
      · rw [lowercaseAt_of_isAlpha hc, lowercaseAt_of_isAlpha hd] at hhead
        rw [List.cons.inj hhead |>.1]

/-- Names are the same up to the case of A to Z just if they have the same small letters and differ
in letters from A to Z only. -/
theorem asciiLowercase_eq_iff {a b : String} :
    asciiLowercase a = asciiLowercase b ↔ lowercase a = lowercase b ∧ SameBesidesLetters a b := by
  simp only [asciiLowercase, lowercase, asciiLowercaseChars, String.ofList_inj]
  constructor
  · intro h
    refine ⟨?_, ?_⟩
    · rw [← lowercaseChars_map_toLower, h, lowercaseChars_map_toLower]
    · rw [← List.forall₂_eq_eq_eq, List.forall₂_map_left_iff, List.forall₂_map_right_iff] at h
      exact h.imp fun _ _ => sameOrLetters_of_toLower_eq
  · rintro ⟨hlower, hsame⟩
    exact map_toLower_eq_of_lowercaseAfter_eq hsame hlower

/-- Lower-casing changes none but the letters A to Z of a name. -/
def HasBasicCapitals (s : String) : Prop :=
  lowercase s = asciiLowercase s

theorem lowercaseAfter_of_ascii {cs : List Char} (h : ∀ c ∈ cs, c.toNat < 128)
    (before : List Char) : lowercaseAfter before cs = cs.map Char.toLower := by
  induction cs generalizing before with
  | nil => rfl
  | cons c rest ih =>
      rw [lowercaseAfter, lowercaseAt_of_ascii (h c List.mem_cons_self), List.map_cons,
        ih (fun d hd => h d (List.mem_cons_of_mem c hd)), List.singleton_append]

/-- The capitals of an ASCII name are basic ones. -/
theorem hasBasicCapitals_of_ascii {s : String} (h : ∀ c ∈ s.toList, c.toNat < 128) :
    HasBasicCapitals s := by
  exact congrArg String.ofList (lowercaseAfter_of_ascii h [])

/-! ### Where names are compared -/

namespace Routine

/-- A parameter is found by a name that is the same up to the case of A to Z. -/
theorem isSome_parameter?_iff {r : Routine} {name : String} :
    (r.parameter? name).isSome = true ↔
      ∃ p ∈ r.parameters, lowercase p.name = lowercase name ∧ SameBesidesLetters p.name name := by
  simp only [parameter?, List.find?_isSome, decide_eq_true_eq, asciiLowercase_eq_iff]

/-- Among names with basic capitals, small letters are all that counts. -/
theorem isSome_parameter?_iff_of_hasBasicCapitals {r : Routine} {name : String}
    (hname : HasBasicCapitals name) (hr : ∀ p ∈ r.parameters, HasBasicCapitals p.name) :
    (r.parameter? name).isSome = true ↔ ∃ p ∈ r.parameters, lowercase p.name = lowercase name := by
  simp only [parameter?, List.find?_isSome, decide_eq_true_eq]
  refine exists_congr fun p => and_congr_right fun hp => ?_
  rw [← hname, ← hr p hp]

end Routine

/-- A variable is found besides parameters just if it is found without them and its name has not the
small letters of theirs. -/
theorem mem_findVariables_iff {s : Source} {body : Span} {excluded : List Span}
    {parameters : List Parameter} {v : Variable} :
    v ∈ (findVariables s body excluded parameters).toList ↔
      v ∈ (findVariables s body excluded []).toList ∧
        ∀ p ∈ parameters, lowercase p.name ≠ lowercase v.name := by
  simp [findVariables, Variables.mem_toList_ofList, mem_firstMentions_iff, and_comm]

/-- Repeated parameters are found just if two names have the same small letters. -/
theorem repeatedParameters_ne_nil_iff {file : String} {r : Routine} :
    repeatedParameters file r ≠ [] ↔ r.RepeatsParameter := by
  rw [← repeatCount_names_ne_zero_iff, ← repeatedNames_length, ne_eq, ne_eq,
    List.length_eq_zero_iff, repeatedParameters, List.map_eq_nil_iff]

/--
**The look-up beside the other two comparisons.**  Of a routine of any text, the look-up finds a
parameter by a name just if one has the same small letters, and besides letters from A to Z the same
characters.  The variables of the body are withheld, and repeated parameters found, by small letters
alone.  So the look-up agrees with these where lower-casing changes no other letters.
-/
theorem parameter?_beside_caseless {text : List Char} {version : Int32} {r : Routine}
    (hr : r ∈ routinesOf text version) (name : String) :
    ((r.parameter? name).isSome = true ↔
        ∃ p ∈ r.parameters, lowercase p.name = lowercase name ∧ SameBesidesLetters p.name name) ∧
      (HasBasicCapitals name → (∀ p ∈ r.parameters, HasBasicCapitals p.name) →
        ((r.parameter? name).isSome = true ↔
          ∃ p ∈ r.parameters, lowercase p.name = lowercase name)) ∧
      (∃ d ∈ declarations (Source.scan text), recordOf (Source.scan text) version d = r ∧
        ∀ v, v ∈ r.vars.toList ↔
          v ∈ (findVariables (Source.scan text) (d.bodySpan (Source.scan text))
            (nestedSpans (Source.scan text) (declaredSpans (Source.scan text)) d) []).toList ∧
          ∀ p ∈ r.parameters, lowercase p.name ≠ lowercase v.name) ∧
      ∀ file, repeatedParameters file r ≠ [] ↔ r.RepeatsParameter := by
  refine ⟨Routine.isSome_parameter?_iff, Routine.isSome_parameter?_iff_of_hasBasicCapitals, ?_,
    fun file => repeatedParameters_ne_nil_iff⟩
  obtain ⟨d, hd, rfl⟩ := mem_assemble.1 hr
  exact ⟨d, hd, rfl, fun v => mem_findVariables_iff⟩

/-- A function with a parameter that its body mentions in another case, one with two such names for
parameters, and one with an ASCII name. -/
def accentedScript : List Char :=
  "F(É, Width) \x7b\n  é := 1\n  Height := 2\n\x7d\nG(É, é) \x7b\n\x7d\nH(Name) \x7b\n\x7d".toList

theorem accentedScript_records :
    (routinesOf accentedScript 0).map
        (fun r => (r.parameters, r.vars.toList.map Variable.name)) =
      [([.plain "É" 0, .plain "Width" 1], ["Height"]), ([.plain "É" 0, .plain "é" 1], []),
        ([.plain "Name" 0], [])] := by
  rewrite [routinesOf, assemble_eq]
  decide +kernel

/-- The three functions. -/
theorem exists_accentedScript_routines :
    ∃ f ∈ routinesOf accentedScript 0, ∃ g ∈ routinesOf accentedScript 0,
      ∃ h ∈ routinesOf accentedScript 0, f.parameters = [.plain "É" 0, .plain "Width" 1] ∧
        f.vars.toList.map Variable.name = ["Height"] ∧
        g.parameters = [.plain "É" 0, .plain "é" 1] ∧ h.parameters = [.plain "Name" 0] := by
  obtain ⟨f, rest, hrecords, hf, hrest⟩ := List.map_eq_cons_iff.1 accentedScript_records
  obtain ⟨g, rest, rfl, hg, hrest⟩ := List.map_eq_cons_iff.1 hrest
  obtain ⟨h, _, rfl, hh, -⟩ := List.map_eq_cons_iff.1 hrest
  simp only [Prod.mk.injEq] at hf hg hh
  exact ⟨f, by simp [hrecords], g, by simp [hrecords], h, by simp [hrecords],
    hf.1, hf.2, hg.1, hh.1⟩

/-- `Width` is found as `WIDTH` beside the accented name, the two accented names are a repeated one,
and `Name` is found as `NAME` by its small letters alone. -/
theorem parameter?_beside_caseless_accentedScript :
    ∃ f ∈ routinesOf accentedScript 0, ∃ g ∈ routinesOf accentedScript 0,
      ∃ h ∈ routinesOf accentedScript 0, (f.parameter? "WIDTH").isSome = true ∧
        repeatedParameters "lib.ahk" g ≠ [] ∧ (h.parameter? "NAME").isSome = true := by
  obtain ⟨f, hf, g, hg, h, hh, hfnames, -, hgnames, hhnames⟩ := exists_accentedScript_routines
  obtain ⟨hfound, -⟩ := parameter?_beside_caseless hf "WIDTH"
  obtain ⟨-, -, -, hrepeated⟩ := parameter?_beside_caseless hg "é"
  obtain ⟨-, hbasic, -⟩ := parameter?_beside_caseless hh "NAME"
  refine ⟨f, hf, g, hg, h, hh, hfound.2 ?_, (hrepeated _).2 ?_, (hbasic ?_ ?_).2 ?_⟩
  · rw [hfnames]
    exact ⟨.plain "Width" 1, by simp, by decide +kernel⟩
  · rw [Routine.RepeatsParameter, hgnames]
    exact ⟨0, 1, .plain "É" 0, .plain "é" 1, by decide, rfl, rfl, by decide +kernel⟩
  · exact hasBasicCapitals_of_ascii (by simp)
  · intro p hp
    rw [hhnames, List.mem_singleton] at hp
    subst hp
    exact hasBasicCapitals_of_ascii (by simp [Parameter.plain])
  · rw [hhnames]
    exact ⟨.plain "Name" 0, by simp, by decide +kernel⟩

/-- The parameter `É` is not found as `é`, though the body that assigns to `é` has no such variable,
as it is the parameter, and though a list with both of them repeats a name. -/
theorem accentedParameter_not_found :
    ∃ f ∈ routinesOf accentedScript 0, ∃ g ∈ routinesOf accentedScript 0,
      (∃ p ∈ f.parameters, lowercase p.name = lowercase "é") ∧ f.parameter? "é" = none ∧
        f.vars.toList.map Variable.name = ["Height"] ∧ repeatedParameters "lib.ahk" g ≠ [] := by
  obtain ⟨f, hf, g, hg, -, -, hfnames, hvars, hgnames, -⟩ := exists_accentedScript_routines
  refine ⟨f, hf, g, hg, ?_, ?_, hvars, repeatedParameters_ne_nil_iff.2 ?_⟩
  · rw [hfnames]
    exact ⟨.plain "É" 0, by simp, by decide +kernel⟩
  · rw [Routine.parameter?, hfnames]
    decide +kernel
  · rw [Routine.RepeatsParameter, hgnames]
    exact ⟨0, 1, .plain "É" 0, .plain "é" 1, by decide, rfl, rfl, by decide +kernel⟩

end ScriptOutline
