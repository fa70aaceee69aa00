/-
**Small letters have no smaller ones.**

Lower-casing looks at the characters around a sigma, and makes two characters of the dotted capital
I.  Still what it leaves is settled: none of its characters is a capital, so that lower-casing it
again changes nothing, whatever was taken away from it before.  No small letter comes near the
marks and the capitals of ASCII, so that none is taken for a separator.  Of what follows a text, all
that is seen is whether a cased character is met there.

Main definitions:

* `CaseRun.isClearOf` — no small letter of a run is a capital of another;
* `IsSmall` — a character that lower-casing leaves as it is, in every place.

Main results:

* `lowercaseChar_eq_or_above` — a small letter is the character itself, or lies above the capitals
  of ASCII;
* `lowercaseChar_of_ascii` — the small letters of ASCII;
* `isSmall_of_mem_lowercaseChars` — what lower-casing leaves is small;
* `lowercaseChars_of_isSmall` — what is small stays as it is;
* `exists_lowercaseAfter_append` — what lower-casing sees of the text behind.
-/

import Mathlib.Data.Bool.AllAny
import ScriptOutline.Text.Lowercase

set_option relaxedAutoImplicit false
set_option autoImplicit false

namespace ScriptOutline

/-! ### The small letters of a run -/

/-- The code point of the first small letter of a run. -/
def CaseRun.low (run : CaseRun) : Nat :=
  (run.first + run.distance).toNat

/-- The code point of the last small letter of a run. -/
def CaseRun.high (run : CaseRun) : Nat :=
  (run.last + run.distance).toNat

/-- The small letters of a run are characters, and lie above the capitals of ASCII. -/
def CaseRun.IsAbove (run : CaseRun) : Prop :=
  96 < run.low ∧ (run.high < 0xD800 ∨ 0xDFFF < run.low ∧ run.high < 0x110000)

instance (run : CaseRun) : Decidable run.IsAbove :=
  inferInstanceAs (Decidable (_ ∧ _))

/--
Whether no small letter of a run is a capital of another: the two lie apart, or they alternate with
one another.
-/
def CaseRun.isClearOf (run other : CaseRun) : Bool :=
  -- all pairs of runs are compared, which is slow with propositions
  run.high.blt other.first || other.last.blt run.low ||
    ((run.step.beq 2 || run.first.beq run.last) && other.step.beq 2 &&
      ((run.low + other.first) % 2).beq 1)

/-- The runs of the capitals, together with the capital that has two small letters. -/
def capitalRuns : List CaseRun :=
  ⟨0x130, 0x130, 1, 0⟩ :: lowercaseRuns

theorem lowercaseRuns_isAbove : ∀ run ∈ lowercaseRuns, run.IsAbove := by
  decide +kernel

theorem lowercaseRuns_isClearOf :
    (lowercaseRuns.all fun run => capitalRuns.all run.isClearOf) = true := by
  decide +kernel

theorem CaseRun.has_iff {run : CaseRun} {n : Nat} :
    run.has n = true ↔ run.first ≤ n ∧ n ≤ run.last ∧ (n - run.first) % run.step = 0 := by
  simp [has, and_assoc]

/-- The code point of a small letter. -/
theorem CaseRun.toNat_small {run : CaseRun} (h : run.IsAbove) {n : Nat} (hn : run.has n = true) :
    ((Char.ofNat (n + run.distance).toNat).toNat : Int) = n + run.distance := by
  obtain ⟨hfirst, hlast, -⟩ := CaseRun.has_iff.1 hn
  simp only [IsAbove, low, high] at h
  obtain ⟨hlow, hhigh⟩ := h
  have hvalid : (n + run.distance).toNat.isValidChar := by
    rcases hhigh with hhigh | ⟨hhigh, htop⟩
    · exact Or.inl (by omega)
    · exact Or.inr ⟨by omega, by omega⟩
  have hcode : (Char.ofNat (n + run.distance).toNat).toNat = (n + run.distance).toNat := by
    rw [Char.ofNat, dif_pos hvalid]
    rfl
  omega

/-- A small letter of a run is no capital of a run that is clear of it. -/
theorem CaseRun.not_has_small {run other : CaseRun} (h : run.IsAbove)
    (hclear : run.isClearOf other = true) {n m : Nat} (hn : run.has n = true)
    (hm : (m : Int) = n + run.distance) : other.has m = false := by
  rw [Bool.eq_false_iff]
  intro hhas
  obtain ⟨hfirst, hlast, hstep⟩ := CaseRun.has_iff.1 hn
  obtain ⟨hfirst', hlast', hstep'⟩ := CaseRun.has_iff.1 hhas
  have hlow := h.1
  simp only [isClearOf, low, high, Bool.or_eq_true, Bool.and_eq_true, Nat.blt_eq, Nat.beq_eq]
    at hclear hlow
  rcases hclear with (hbelow | habove) | ⟨⟨hsteps, htwo⟩, hodd⟩
  · omega
  · omega
  · rw [htwo] at hstep'
    rcases hsteps with hsteps | hsteps
    · rw [hsteps] at hstep
      omega
    · omega

/-! ### Small letters -/

/-- A character that is no capital. -/
def IsSmall (c : Char) : Prop :=
  ∀ run ∈ capitalRuns, run.has c.toNat = false

instance (c : Char) : Decidable (IsSmall c) :=
  inferInstanceAs (Decidable (∀ run ∈ capitalRuns, run.has c.toNat = false))

/-- The small letter of a character is that of the run of the character, if it has one. -/
theorem lowercaseChar_cases (c : Char) :
    (∃ run ∈ lowercaseRuns, run.has c.toNat = true ∧
      ((lowercaseChar c).toNat : Int) = c.toNat + run.distance) ∨
    (∀ run ∈ lowercaseRuns, run.has c.toNat = false) ∧ lowercaseChar c = c := by
  unfold lowercaseChar
  cases hfind : lowercaseRuns.find? (·.has c.toNat) with
  | some run =>
      have hmem := List.mem_of_find?_eq_some hfind
      have hhas := List.find?_some hfind
      exact Or.inl ⟨run, hmem, hhas, CaseRun.toNat_small (lowercaseRuns_isAbove run hmem) hhas⟩
  | none =>
      refine Or.inr ⟨fun run hrun => ?_, rfl⟩
      simpa using List.find?_eq_none.1 hfind run hrun

/-- A small letter is the character itself, or it lies above the capitals of ASCII. -/
theorem lowercaseChar_eq_or_above (c : Char) :
    lowercaseChar c = c ∨ 96 < (lowercaseChar c).toNat := by
  rcases lowercaseChar_cases c with ⟨run, hrun, hhas, hcode⟩ | ⟨-, hsame⟩
  · obtain ⟨hfirst, -, -⟩ := CaseRun.has_iff.1 hhas
    have hlow := (lowercaseRuns_isAbove run hrun).1
    rw [CaseRun.low] at hlow
    exact Or.inr (by omega)
  · exact Or.inl hsame

/-- The small letter of a character is no capital, unless there are two of them. -/
theorem isSmall_lowercaseChar {c : Char} (hc : c ≠ 'İ') : IsSmall (lowercaseChar c) := by
  rcases lowercaseChar_cases c with ⟨run, hrun, hhas, hcode⟩ | ⟨hnone, hsame⟩
  · intro other hother
    have hclear := List.all_eq_true.1 lowercaseRuns_isClearOf run hrun
    exact CaseRun.not_has_small (lowercaseRuns_isAbove run hrun)
      (List.all_eq_true.1 hclear other hother) hhas hcode
  · rw [hsame]
    refine List.forall_mem_cons.2 ⟨?_, hnone⟩
    rw [Bool.eq_false_iff]
    intro hhas
    obtain ⟨hfirst, hlast, -⟩ := CaseRun.has_iff.1 hhas
    exact hc (Char.toNat_inj.1 (Nat.le_antisymm hlast hfirst))

/-- The small letters of a character are no capitals, in any place. -/
theorem isSmall_of_mem_lowercaseAt {before after : List Char} {c d : Char}
    (h : d ∈ lowercaseAt before c after) : IsSmall d := by
  unfold lowercaseAt at h
  split at h
  · have hboth : ∀ d ∈ ['i', '\u0307'], IsSmall d :=
      List.all_iff_forall_prop.1 (by decide +kernel)
    exact hboth d h
  · next hc =>
      split at h
      · rw [List.mem_singleton.1 h]
        decide +kernel
      · rw [List.mem_singleton.1 h]
        exact isSmall_lowercaseChar hc

/-- A small character stays as it is, in any place. -/
theorem IsSmall.lowercaseAt_eq {c : Char} (h : IsSmall c) (before after : List Char) :
    lowercaseAt before c after = [c] := by
  have hdotted : c ≠ 'İ' := by
    rintro rfl
    exact absurd h (by decide +kernel)
  have hsigma : c ≠ 'Σ' := by
    rintro rfl
    exact absurd h (by decide +kernel)
  have hsame : lowercaseChar c = c := by
    rcases lowercaseChar_cases c with ⟨run, hrun, hhas, -⟩ | ⟨-, hsame⟩
    · rw [h run (List.mem_cons_of_mem _ hrun)] at hhas
      exact absurd hhas Bool.false_ne_true
    · exact hsame
  simp [lowercaseAt, hdotted, hsigma, hsame]

/-! ### The letters of ASCII -/

/-- The code point of the small letter of a letter from A to Z. -/
theorem toNat_toLower (c : Char) :
    c.toLower.toNat = if 65 ≤ c.toNat ∧ c.toNat ≤ 90 then c.toNat + 32 else c.toNat := by
  have hupper : c.val ≥ 'A'.val ∧ c.val ≤ 'Z'.val ↔ 65 ≤ c.toNat ∧ c.toNat ≤ 90 := by
    simp only [ge_iff_le, UInt32.le_iff_toNat_le]
    rfl
  unfold Char.toLower
  split
  · next h =>
      have hrange := hupper.1 h
      have hdistance : ('a'.val - 'A'.val).toNat = 32 := rfl
      have hcode : c.val.toNat = c.toNat := rfl
      rw [if_pos hrange]
      show (c.val + ('a'.val - 'A'.val)).toNat = c.toNat + 32
      rw [UInt32.toNat_add]
      omega
  · next h => rw [if_neg (mt hupper.2 h)]

/-- The first run has the capitals of ASCII, and all others lie above ASCII. -/
theorem lowercaseRuns_ascii : ∃ others, lowercaseRuns = ⟨0x41, 0x5A, 1, 32⟩ :: others ∧
    ∀ run ∈ others, 128 ≤ run.first :=
  ⟨lowercaseRuns.tail, rfl, by decide +kernel⟩

/-- Among the characters of ASCII, the letters from A to Z have other small letters. -/
theorem lowercaseChar_of_ascii {c : Char} (h : c.toNat < 128) : lowercaseChar c = c.toLower := by
  obtain ⟨others, hruns, hothers⟩ := lowercaseRuns_ascii
  have hlower := toNat_toLower c
  refine Char.toNat_inj.1 ?_
  rcases lowercaseChar_cases c with ⟨run, hrun, hhas, hcode⟩ | ⟨hnone, hsame⟩
  · obtain ⟨hfirst, hlast, -⟩ := CaseRun.has_iff.1 hhas
    rcases List.mem_cons.1 (hruns ▸ hrun) with rfl | hrun
    · rw [if_pos ⟨hfirst, hlast⟩] at hlower
      simp only at hcode
      omega
    · have habove := hothers run hrun
      omega
  · have hnot : ¬(65 ≤ c.toNat ∧ c.toNat ≤ 90) := by
      intro hrange
      have hhas := hnone ⟨0x41, 0x5A, 1, 32⟩ (hruns ▸ List.mem_cons_self)
      rw [CaseRun.has_iff.2 ⟨hrange.1, hrange.2, Nat.mod_one _⟩] at hhas
      exact Bool.noConfusion hhas
    rw [hsame, hlower, if_neg hnot]

/-! ### Lower-casing a text -/

theorem exists_of_mem_lowercaseAfter {before cs : List Char} {d : Char}
    (h : d ∈ lowercaseAfter before cs) :
    ∃ c ∈ cs, ∃ before' after, d ∈ lowercaseAt before' c after := by
  induction cs generalizing before with
  | nil => exact absurd h List.not_mem_nil
  | cons c rest ih =>
      rcases List.mem_append.1 h with h | h
      · exact ⟨c, List.mem_cons_self, before, rest, h⟩
      · obtain ⟨c', hc', hmem⟩ := ih h
        exact ⟨c', List.mem_cons_of_mem c hc', hmem⟩

/-- What lower-casing leaves is small. -/
theorem isSmall_of_mem_lowercaseChars {cs : List Char} {d : Char} (h : d ∈ lowercaseChars cs) :
    IsSmall d := by
  obtain ⟨c, -, before, after, hd⟩ := exists_of_mem_lowercaseAfter h
  exact isSmall_of_mem_lowercaseAt hd

theorem lowercaseAfter_of_isSmall {cs : List Char} (h : ∀ c ∈ cs, IsSmall c)
    (before : List Char) : lowercaseAfter before cs = cs := by
  induction cs generalizing before with
  | nil => rfl
  | cons c rest ih =>
      obtain ⟨hc, hrest⟩ := List.forall_mem_cons.1 h
      rw [lowercaseAfter, hc.lowercaseAt_eq, ih hrest, List.singleton_append]

/-- What is small stays as it is. -/
theorem lowercaseChars_of_isSmall {cs : List Char} (h : ∀ c ∈ cs, IsSmall c) :
    lowercaseChars cs = cs :=
  lowercaseAfter_of_isSmall h []

/-- What lower-casing leaves was there before, or lies above the capitals of ASCII. -/
theorem mem_or_above_of_mem_lowercaseChars {cs : List Char} {d : Char}
    (h : d ∈ lowercaseChars cs) : d ∈ cs ∨ 96 < d.toNat := by
  obtain ⟨c, hc, before, after, hd⟩ := exists_of_mem_lowercaseAfter h
  unfold lowercaseAt at hd
  split at hd
  · have hboth : ∀ d ∈ ['i', '\u0307'], 96 < d.toNat := List.all_iff_forall_prop.1 (by decide)
    exact Or.inr (hboth d hd)
  · split at hd
    · rw [List.mem_singleton.1 hd]
      exact Or.inr (by decide)
    · rw [List.mem_singleton.1 hd]
      rcases lowercaseChar_eq_or_above c with hsame | habove
      · exact Or.inl (by rwa [hsame])
      · exact Or.inr habove

/-! ### What lower-casing sees of the text behind -/

theorem meetsCased_append_congr {ys ys' : List Char} (h : meetsCased ys = meetsCased ys')
    (xs : List Char) : meetsCased (xs ++ ys) = meetsCased (xs ++ ys') := by
  induction xs with
  | nil => exact h
  | cons c xs ih =>
      by_cases hc : caseIgnorable.has c = true
      · simpa only [meetsCased, List.cons_append, List.dropWhile_cons, hc, if_true] using ih
      · simp [meetsCased, hc]

/--
Two texts behind leave the small letters in front of them the same if a cased character is met in
both or in none.
-/
theorem exists_lowercaseAfter_append {ys ys' : List Char} (h : meetsCased ys = meetsCased ys')
    (before xs : List Char) :
    ∃ small, lowercaseAfter before (xs ++ ys) =
        small ++ lowercaseAfter (xs.reverse ++ before) ys ∧
      lowercaseAfter before (xs ++ ys') =
        small ++ lowercaseAfter (xs.reverse ++ before) ys' := by
  induction xs generalizing before with
  | nil => exact ⟨[], rfl, rfl⟩
  | cons c xs ih =>
      obtain ⟨small, hsmall, hsmall'⟩ := ih (c :: before)
      have hsame : lowercaseAt before c (xs ++ ys') = lowercaseAt before c (xs ++ ys) := by
        simp only [lowercaseAt, meetsCased_append_congr h xs]
      refine ⟨lowercaseAt before c (xs ++ ys) ++ small, ?_, ?_⟩
      · rw [List.cons_append, lowercaseAfter, hsmall]
        simp
      · rw [List.cons_append, lowercaseAfter, hsmall', hsame]
        simp

end ScriptOutline
