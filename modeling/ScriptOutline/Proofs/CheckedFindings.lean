/-
**What a check finds, and in which order.**

A check finds one thing for each routine that an earlier one clashes with, one for each parameter
whose name came before, and one for each routine whose parameters could not be read, and nothing
else.  The findings come in the order of their places.  Those of one place come in the order of the
rules: first the routines that clash, then, routine by routine, the parameters before the signature.

All of this holds for any list of routines, whether they were read from a script or not.  Two
routines of such a list may start together; of those around a routine that start last together, the
last one in the list is the one that counts.

Main definitions:

* `IsParent`, `Clash` — which routine counts as the one around another, and when two clash;
* `firstAlike?` — the routine that one is reported to repeat;
* `Routine.repeatingParameters` — the parameters whose name came before;
* `Routine.signatureReports`, `reports` — what the rules say of a routine, and of a list of them;
* `Finding.SamePlace`, `Finding.RuleBefore` — how two findings may stand to each other;
* `crowdedRoutines` — routines that break every rule at one place.

Main results:

* `parentIndex?_eq_some_iff` — the index of the routine around another;
* `clashKey_eq_iff` — two routines have one key exactly if they clash;
* `repeatedRoutines_eq`, `repeatedParameters_eq` — what the rules find, without what was seen;
* `filter_mergeSort` — members of a list that may stand in any order keep theirs in a sorted one;
* `check_exact` — **what a check finds, and in which order**.
-/

import Mathlib.Data.List.Pairwise
import ScriptOutline.Proofs.RepeatedRoutines
import ScriptOutline.Proofs.SmallLetters

set_option relaxedAutoImplicit false
set_option autoImplicit false

namespace ScriptOutline

/-! ### The routine around another -/

/--
The routine with the index `k` is the one around a routine: among the others around it, it starts
last, and it is the last one of those that start where it does.
-/
structure IsParent (routines : List Routine) (index : Nat) (r : Routine) (k : Nat) : Prop where
  ne_index : k ≠ index
  encloses : ∃ p, routines[k]? = some p ∧ p.span.encloses r.span = true
  starts_last : ∀ j p q, routines[k]? = some p → routines[j]? = some q → j ≠ index →
    q.span.encloses r.span = true →
      q.span.start < p.span.start ∨ q.span.start = p.span.start ∧ j ≤ k

/-- Two routines clash if they have one name, one class and one routine around them. -/
structure Clash (routines : List Routine) (i : Nat) (f : Routine) (j : Nat) (g : Routine) :
    Prop where
  class_eq : f.className.map lowercase = g.className.map lowercase
  parent_iff : ∀ k, IsParent routines i f k ↔ IsParent routines j g k
  name_eq : lowercase f.name = lowercase g.name

section

variable {α : Type} {start : α → Position} {l : List α} {a : α}

/-- What starts last stands behind all that start where it does. -/
theorem latest?_split (h : latest? start l = some a) :
    ∃ before after, l = before ++ a :: after ∧ (∀ b ∈ before, start b ≤ start a) ∧
      ∀ b ∈ after, start b < start a := by
  induction l generalizing a with
  | nil => simp [latest?] at h
  | cons b rest ih =>
      simp only [latest?] at h
      split at h
      · next hrest =>
          rw [latest?_eq_none_iff] at hrest
          simp only [Option.some.injEq] at h
          subst h hrest
          exact ⟨[], [], rfl, by simp, by simp⟩
      · next c hc =>
          split at h
          · next hle =>
              simp only [Option.some.injEq] at h
              subst h
              obtain ⟨before, after, rfl, hbefore, hafter⟩ := ih hc
              refine ⟨b :: before, after, rfl, ?_, hafter⟩
              intro e he
              rcases List.mem_cons.1 he with rfl | he
              · exact hle
              · exact hbefore e he
          · next hnot =>
              simp only [Option.some.injEq] at h
              subst h
              refine ⟨[], rest, rfl, by simp, ?_⟩
              intro e he
              exact lt_of_le_of_lt ((latest?_spec hc).2 e he) (lt_of_not_ge hnot)

end

section

variable {routines : List Routine} {index k : Nat} {r : Routine}

theorem IsParent.unique {k' : Nat} (h : IsParent routines index r k)
    (h' : IsParent routines index r k') : k = k' := by
  obtain ⟨p, hp, hpr⟩ := h.encloses
  obtain ⟨q, hq, hqr⟩ := h'.encloses
  rcases h.starts_last k' p q hp hq h'.ne_index hqr with hlt | ⟨heq, hle⟩
  · rcases h'.starts_last k q p hq hp h.ne_index hpr with hlt' | ⟨heq', -⟩
    · exact absurd hlt (not_lt_of_gt hlt')
    · exact absurd heq'.symm (ne_of_lt hlt)
  · rcases h'.starts_last k q p hq hp h.ne_index hpr with hlt' | ⟨-, hle'⟩
    · exact absurd heq (ne_of_gt hlt')
    · exact Nat.le_antisymm hle' hle

/-- The others around a routine, with their indices. -/
theorem mem_around_iff {x : Routine × Nat} :
    x ∈ routines.zipIdx.filter (fun (other, n) => n ≠ index && other.span.encloses r.span) ↔
      routines[x.2]? = some x.1 ∧ x.2 ≠ index ∧ x.1.span.encloses r.span = true := by
  rw [List.mem_filter, List.mem_zipIdx_iff_getElem?, Bool.and_eq_true, decide_eq_true_eq]

/-- The indices of the members of a list increase. -/
theorem zipIdx_indices_pairwise (l : List Routine) :
    l.zipIdx.Pairwise fun x y => x.2 < y.2 := by
  rw [← List.pairwise_map (f := Prod.snd), List.zipIdx_map_snd]
  exact List.pairwise_lt_range'

/-- The index that is computed is that of the routine around another. -/
theorem parentIndex?_eq_some_iff :
    parentIndex? routines index r = some k ↔ IsParent routines index r k := by
  have hisParent {k : Nat} (h : parentIndex? routines index r = some k) :
      IsParent routines index r k := by
    obtain ⟨⟨p, n⟩, hlast, rfl⟩ := Option.map_eq_some_iff.1 h
    obtain ⟨before, after, hsplit, hbefore, hafter⟩ := latest?_split hlast
    obtain ⟨hp, hne, hpr⟩ := mem_around_iff.1 (latest?_spec hlast).1
    have hindices := (zipIdx_indices_pairwise routines).filter
      fun (other, n) => n ≠ index && other.span.encloses r.span
    rw [hsplit] at hindices
    refine ⟨hne, ⟨p, hp, hpr⟩, ?_⟩
    intro j p' q hp' hq hj hqr
    obtain rfl : p = p' := Option.some.inj (hp.symm.trans hp')
    have hmem := mem_around_iff (x := (q, j)).2 ⟨hq, hj, hqr⟩
    rw [hsplit] at hmem
    rcases List.mem_append.1 hmem with hmem | hmem
    · have hlt := (List.pairwise_append.1 hindices).2.2 _ hmem _ List.mem_cons_self
      exact (lt_or_eq_of_le (hbefore _ hmem)).imp id fun heq => ⟨heq, Nat.le_of_lt hlt⟩
    · rcases List.mem_cons.1 hmem with heq | hmem
      · obtain ⟨rfl, rfl⟩ := Prod.mk.inj heq
        exact Or.inr ⟨rfl, Nat.le_refl _⟩
      · exact Or.inl (hafter _ hmem)
  refine ⟨hisParent, ?_⟩
  intro h
  cases hfound : parentIndex? routines index r with
  | some k' => rw [h.unique (hisParent hfound)]
  | none =>
      obtain ⟨p, hp, hpr⟩ := h.encloses
      have hmem := mem_around_iff (x := (p, k)).2 ⟨hp, h.ne_index, hpr⟩
      rw [latest?_eq_none_iff.1 (Option.map_eq_none_iff.1 hfound)] at hmem
      exact absurd hmem List.not_mem_nil

/-- Two routines have one key exactly if they clash. -/
theorem clashKey_eq_iff {i j : Nat} {f g : Routine} :
    clashKey routines i f = clashKey routines j g ↔ Clash routines i f j g := by
  have hparent : parentIndex? routines i f = parentIndex? routines j g ↔
      ∀ k, IsParent routines i f k ↔ IsParent routines j g k := by
    simp only [← parentIndex?_eq_some_iff]
    exact Option.ext_iff
  rw [clashKey, clashKey, ClashKey.mk.injEq, hparent]
  exact ⟨fun h => ⟨h.1, h.2.1, h.2.2⟩, fun h => ⟨h.class_eq, h.parent_iff, h.name_eq⟩⟩

end

/-! ### What the rules say -/

/-- The first of the routines before one that have its key. -/
def firstAlike? (routines : List Routine) (j : Nat) (g : Routine) : Option Routine :=
  ((routines.zipIdx.take j).find? fun (f, i) =>
    clashKey routines i f = clashKey routines j g).map Prod.fst

/-- The parameters with a name that one before them has, in any case of the letters. -/
def Routine.repeatingParameters (r : Routine) : List Parameter :=
  (r.parameters.zipIdx.filter fun (p, n) => p.name ≠ Parameter.anonymous &&
    (r.parameters.take n).any fun q => lowercase q.name = lowercase p.name).map Prod.fst

/-- What the second and the third rule say of a routine. -/
def Routine.signatureReports (r : Routine) (file : String) : List Finding :=
  (r.repeatingParameters.map fun p => r.finding file .duplicateParameter
      ("parameter " ++ p.name ++ " appears more than once in " ++ r.qualifiedName)) ++
    (r.parseError.map fun error => r.finding file .malformedSignature
      ("cannot parse parameters of " ++ r.qualifiedName ++ ": " ++ error)).toList

/-- What the three rules say of a list of routines: the first rule of all of them, the others of
one routine after another. -/
def reports (file : String) (routines : List Routine) : List Finding :=
  (routines.zipIdx.filterMap fun (g, j) =>
      (firstAlike? routines j g).map fun f => g.finding file .duplicateFunction
        (g.qualifiedName ++ " is already declared at line " ++
          toString (f.span.start.line + 1))) ++
    routines.flatMap (·.signatureReports file)

/-- Looking up a key among pairs finds the first one that is paired with it. -/
theorem lookup_map {α β γ : Type} [DecidableEq β] (key : α → β) (value : α → γ) (l : List α)
    (b : β) : (l.map fun a => (key a, value a)).lookup b =
      (l.find? fun a => decide (key a = b)).map value := by
  induction l with
  | nil => rfl
  | cons a l ih =>
      by_cases h : key a = b
      · simp [h]
      · have h' : (b == key a) = false := beq_eq_false_iff_ne.2 (Ne.symm h)
        simp [List.lookup_cons, h, h', ih]

/-- What was seen before a routine are the keys on the list before it. -/
theorem repeatsFrom_eq (file : String) (seen keyed : List (ClashKey × Routine)) :
    repeatsFrom file seen keyed = keyed.zipIdx.filterMap fun x =>
      ((seen ++ keyed.take x.2).lookup x.1.1).map (x.1.2.declaredAgain file) := by
  induction keyed generalizing seen with
  | nil => rfl
  | cons entry rest ih =>
      obtain ⟨key, r⟩ := entry
      have hhead : (seen ++ ((key, r) :: rest).take 0).lookup key = seen.lookup key := by
        rw [List.take_zero, List.append_nil]
      rw [List.zipIdx_cons, List.filterMap_cons, List.zipIdx_succ, List.filterMap_map]
      simp only [repeatsFrom, hhead]
      cases hseen : seen.lookup key with
      | some first =>
          rw [ih]
          refine congrArg _ (List.filterMap_congr ?_)
          intro x _
          rw [Function.comp_apply, List.take_succ_cons, lookup_of_seen hseen]
      | none =>
          simp only [Option.map_none, ih]
          refine List.filterMap_congr ?_
          intro x _
          rw [Function.comp_apply, List.take_succ_cons, lookup_of_not_seen hseen]

/-- The first rule reports the routines that have the key of an earlier one, and names the first. -/
theorem repeatedRoutines_eq (file : String) (routines : List Routine) :
    repeatedRoutines file routines = routines.zipIdx.filterMap fun (g, j) =>
      (firstAlike? routines j g).map (g.declaredAgain file) := by
  have hlookup (j : Nat) (key : ClashKey) : ((keyedRoutines routines).take j).lookup key =
      ((routines.zipIdx.take j).find? fun (f, i) => clashKey routines i f = key).map Prod.fst := by
    rw [keyedRoutines, ← List.map_take]
    exact lookup_map (fun x : Routine × Nat => clashKey routines x.2 x.1) Prod.fst _ key
  have hkeyed : (keyedRoutines routines).zipIdx =
      routines.zipIdx.map fun x => ((clashKey routines x.2 x.1, x.1), x.2) := by
    refine List.ext_getElem? ?_
    intro n
    rw [List.getElem?_zipIdx, keyedRoutines_getElem?, List.getElem?_map, List.getElem?_zipIdx]
    cases routines[n]? <;> simp
  rw [repeatedRoutines, repeatsFrom_eq, hkeyed, List.filterMap_map]
  refine List.filterMap_congr ?_
  intro x _
  rw [Function.comp_apply, List.nil_append, hlookup]
  rfl

/-- No other character has the anonymous mark for its small letter. -/
theorem lowercaseChar_eq_mark {c : Char} (h : lowercaseChar c = '*') : c = '*' := by
  rcases lowercaseChar_eq_or_above c with hsame | habove
  · rw [← hsame, h]
  · rw [h] at habove
    exact absurd habove (by decide)

/-- No other name has the small letters of the anonymous one. -/
theorem lowercase_eq_anonymous {s : String} (h : lowercase s = Parameter.anonymous) :
    s = Parameter.anonymous := by
  have hchars : lowercaseChars s.toList = ['*'] := by
    rw [← String.toList_ofList (l := lowercaseChars s.toList), ← lowercase, h]
    rfl
  suffices hs : s.toList = ['*'] from String.toList_inj.1 hs
  rw [lowercaseChars] at hchars
  cases hcs : s.toList with
  | nil =>
      rw [hcs] at hchars
      exact absurd hchars (by simp [lowercaseAfter])
  | cons c rest =>
      rw [hcs, lowercaseAfter] at hchars
      simp only [lowercaseAt] at hchars
      split at hchars
      · simp at hchars
      · split at hchars
        · simp at hchars
        · obtain ⟨hc, hrest⟩ := List.cons.inj hchars
          rw [lowercaseChar_eq_mark hc]
          cases rest with
          | nil => rfl
          | cons c' rest =>
              simp only [lowercaseAfter, lowercaseAt] at hrest
              split at hrest
              · simp at hrest
              · split at hrest <;> simp at hrest

/-- Whether a parameter has a name that is among `seen` or that one of `before` has. -/
def Parameter.repeatsName (p : Parameter) (seen : List String) (before : List Parameter) : Bool :=
  p.name ≠ anonymous && (decide (lowercase p.name ∈ seen) ||
    before.any fun q => lowercase q.name = lowercase p.name)

theorem Parameter.repeatsName_cons {p q : Parameter} {seen seen' : List String}
    {before : List Parameter} (h : q.name ≠ anonymous →
      (lowercase q.name ∈ seen ∨ lowercase p.name = lowercase q.name ↔ lowercase q.name ∈ seen')) :
    q.repeatsName seen (p :: before) = q.repeatsName seen' before := by
  by_cases hq : q.name = anonymous
  · simp [repeatsName, hq]
  · simp only [repeatsName, List.any_cons, ← Bool.or_assoc, ← Bool.decide_or, h hq]

/-- The names that come again are those of the parameters that repeat an earlier name. -/
theorem repeatedNames_eq {seen : List String} (hseen : Parameter.anonymous ∉ seen)
    (ps : List Parameter) :
    repeatedNames seen ((ps.map Parameter.name).filter (· ≠ Parameter.anonymous)) =
      (ps.zipIdx.filter fun x => x.1.repeatsName seen (ps.take x.2)).map fun x => x.1.name := by
  induction ps generalizing seen with
  | nil => rfl
  | cons p ps ih =>
      have htail {seen' : List String} (hseen' : Parameter.anonymous ∉ seen')
          (h : ∀ q : Parameter, q.name ≠ Parameter.anonymous →
            (lowercase q.name ∈ seen ∨ lowercase p.name = lowercase q.name ↔
              lowercase q.name ∈ seen')) :
          ((ps.zipIdx 1).filter fun x => x.1.repeatsName seen ((p :: ps).take x.2)).map
              (fun x => x.1.name) =
            repeatedNames seen' ((ps.map Parameter.name).filter (· ≠ Parameter.anonymous)) := by
        rw [ih hseen', List.zipIdx_succ, List.filter_map, List.map_map]
        refine congrArg _ (List.filter_congr ?_)
        intro x _
        exact Parameter.repeatsName_cons (h x.1)
      have hhead : p.repeatsName seen ((p :: ps).take 0) = true ↔
          p.name ≠ Parameter.anonymous ∧ lowercase p.name ∈ seen := by
        simp [Parameter.repeatsName]
      rw [List.map_cons, List.zipIdx_cons, List.filter_cons, List.filter_cons]
      simp only [hhead, decide_eq_true_eq]
      by_cases hp : p.name = Parameter.anonymous
      · -- The small letters of another name are not those of an anonymous parameter.
        have hne (q : Parameter) (hq : q.name ≠ Parameter.anonymous) :
            lowercase p.name ≠ lowercase q.name := by
          intro h
          rw [hp] at h
          exact hq (lowercase_eq_anonymous h.symm)
        rw [if_neg (not_not.2 hp), if_neg fun h => h.1 hp]
        exact (htail hseen fun q hq => or_iff_left (hne q hq)).symm
      · rw [if_pos hp, repeatedNames]
        simp only [List.contains_iff_mem]
        by_cases hmem : lowercase p.name ∈ seen
        · rw [if_pos hmem, if_pos ⟨hp, hmem⟩, List.map_cons]
          exact congrArg _ (htail hseen fun q _ => or_iff_left_of_imp fun h => h ▸ hmem).symm
        · have hnew : Parameter.anonymous ∉ lowercase p.name :: seen := by
            rw [List.mem_cons, not_or]
            exact ⟨fun h => hp (lowercase_eq_anonymous h.symm), hseen⟩
          rw [if_neg hmem, if_neg fun h => hmem h.2]
          refine (htail hnew fun q _ => ?_).symm
          rw [List.mem_cons, or_comm, eq_comm]

/-- The second rule reports the parameters that repeat an earlier name. -/
theorem repeatedParameters_eq (file : String) (r : Routine) :
    repeatedParameters file r = r.repeatingParameters.map fun p =>
      r.finding file .duplicateParameter
        ("parameter " ++ p.name ++ " appears more than once in " ++ r.qualifiedName) := by
  rw [repeatedParameters, Routine.parameterNames, repeatedNames_eq List.not_mem_nil,
    Routine.repeatingParameters, List.map_map, List.map_map]
  simp [Parameter.repeatsName]

/-- What is sorted is what the rules say. -/
theorem check_eq (file : String) (routines : List Routine) :
    check file routines = (reports file routines).mergeSort Finding.placedBefore := by
  have hsignature (r : Routine) :
      repeatedParameters file r ++ unreadSignature file r = r.signatureReports file := by
    rw [repeatedParameters_eq, Routine.signatureReports, unreadSignature]
    cases r.parseError <;> rfl
  simp only [check, reports, repeatedRoutines_eq, hsignature]
  rfl

/-! ### The order of findings -/

namespace Finding

theorem placedBefore_iff {a b : Finding} :
    a.placedBefore b = true ↔ a.line < b.line ∨ a.line = b.line ∧ a.column ≤ b.column := by
  simp [placedBefore]

theorem placedBefore_trans (a b c : Finding) (hab : a.placedBefore b = true)
    (hbc : b.placedBefore c = true) : a.placedBefore c = true := by
  rw [placedBefore_iff] at *
  omega

theorem placedBefore_total (a b : Finding) : (a.placedBefore b || b.placedBefore a) = true := by
  rw [Bool.or_eq_true, placedBefore_iff, placedBefore_iff]
  omega

/-- Whether a finding is at a place. -/
def isAt (d : Finding) (line column : Nat) : Bool :=
  d.line = line && d.column = column

end Finding

/-- Members of a list that may stand in any order keep theirs when the list is sorted. -/
theorem filter_mergeSort {α : Type} {le : α → α → Bool}
    (htrans : ∀ a b c, le a b = true → le b c = true → le a c = true)
    (htotal : ∀ a b, (le a b || le b a) = true) {p : α → Bool} {l : List α}
    (hp : ∀ a b, p a = true → p b = true → le a b = true) :
    (l.mergeSort le).filter p = l.filter p := by
  have hties : (l.filter p).Pairwise fun a b => le a b = true :=
    List.pairwise_of_forall_mem_list fun a ha b hb =>
      hp a b (List.of_mem_filter ha) (List.of_mem_filter hb)
  have hsub := (List.sublist_mergeSort htrans htotal hties List.filter_sublist).filter p
  rw [List.filter_filter] at hsub
  simp only [Bool.and_self] at hsub
  refine (hsub.eq_of_length ?_).symm
  exact ((List.mergeSort_perm l le).filter p).length_eq.symm

/-- The findings of one place come in the order in which the rules say them. -/
theorem filter_check (file : String) (routines : List Routine) (line column : Nat) :
    (check file routines).filter (·.isAt line column) =
      (reports file routines).filter (·.isAt line column) := by
  rw [check_eq]
  refine filter_mergeSort Finding.placedBefore_trans Finding.placedBefore_total ?_
  intro a b ha hb
  simp only [Finding.isAt, Bool.and_eq_true, decide_eq_true_eq] at ha hb
  rw [Finding.placedBefore_iff]
  omega

/-- What is said of the parameters and the signature of a routine is said of its start. -/
theorem exists_finding_of_mem_signatureReports {file : String} {r : Routine} {d : Finding}
    (h : d ∈ r.signatureReports file) : ∃ message, d = r.finding file d.rule message := by
  rcases List.mem_append.1 h with h | h
  · obtain ⟨p, -, rfl⟩ := List.mem_map.1 h
    exact ⟨_, rfl⟩
  · obtain ⟨error, -, rfl⟩ := Option.map_eq_some_iff.1 (Option.mem_toList.1 h)
    exact ⟨_, rfl⟩

/-- What the rules say is said of the start of a routine. -/
theorem exists_finding_of_mem_reports {file : String} {routines : List Routine} {d : Finding}
    (h : d ∈ reports file routines) :
    ∃ r ∈ routines, ∃ message, d = r.finding file d.rule message := by
  rcases List.mem_append.1 h with h | h
  · obtain ⟨⟨g, j⟩, hg, h⟩ := List.mem_filterMap.1 h
    obtain ⟨f, -, rfl⟩ := Option.map_eq_some_iff.1 h
    exact ⟨g, List.mem_of_getElem? (List.mem_zipIdx_iff_getElem?.1 hg), _, rfl⟩
  · obtain ⟨r, hr, h⟩ := List.mem_flatMap.1 h
    exact ⟨r, hr, exists_finding_of_mem_signatureReports h⟩

namespace Finding

/-- Whether two findings are at one place. -/
def SamePlace (a b : Finding) : Prop :=
  a.line = b.line ∧ a.column = b.column

/-- Whether the rule of a finding comes no later among the rules than that of another. -/
def RuleBefore (a b : Finding) : Prop :=
  Rule.all.idxOf a.rule ≤ Rule.all.idxOf b.rule

end Finding

/-- The parameters of a routine are reported before its signature. -/
theorem Routine.signatureReports_pairwise (file : String) (r : Routine) :
    (r.signatureReports file).Pairwise Finding.RuleBefore := by
  refine List.pairwise_append.2 ⟨?_, ?_, ?_⟩
  · refine List.pairwise_map.2 (List.pairwise_of_forall_mem_list ?_)
    intro p _ q _
    exact Nat.le_refl _
  · cases r.parseError <;> simp
  · intro a ha b hb
    obtain ⟨p, -, rfl⟩ := List.mem_map.1 ha
    obtain ⟨error, -, rfl⟩ := Option.map_eq_some_iff.1 (Option.mem_toList.1 hb)
    exact Nat.le_succ _

/-- If no two routines start together, what is said of a place is said in the order of the rules. -/
theorem reports_pairwise (file : String) {routines : List Routine}
    (hstarts : (routines.map (·.span.start)).Nodup) :
    (reports file routines).Pairwise fun a b => a.SamePlace b → a.RuleBefore b := by
  have hfirst {d : Finding} (h : d ∈ routines.zipIdx.filterMap fun (g, j) =>
      (firstAlike? routines j g).map fun f => g.finding file .duplicateFunction
        (g.qualifiedName ++ " is already declared at line " ++
          toString (f.span.start.line + 1))) (e : Finding) : d.RuleBefore e := by
    obtain ⟨x, -, h⟩ := List.mem_filterMap.1 h
    obtain ⟨f, -, rfl⟩ := Option.map_eq_some_iff.1 h
    exact Nat.zero_le _
  refine List.pairwise_append.2 ⟨?_, ?_, fun a ha b _ _ => hfirst ha b⟩
  · refine List.pairwise_of_forall_mem_list ?_
    intro a ha b _ _
    exact hfirst ha b
  · refine List.pairwise_flatMap.2 ⟨?_, ?_⟩
    · intro r _
      refine (r.signatureReports_pairwise file).imp ?_
      intro a b h _
      exact h
    · refine (List.pairwise_map.1 hstarts).imp ?_
      intro f g hne a ha b hb hplace
      -- Findings of two routines are at the starts of these, which are different.
      obtain ⟨message, ha⟩ := exists_finding_of_mem_signatureReports ha
      obtain ⟨message', hb⟩ := exists_finding_of_mem_signatureReports hb
      rw [ha, hb] at hplace
      refine absurd ?_ hne
      rw [Position.mk.injEq]
      exact ⟨Nat.succ.inj hplace.1, Nat.succ.inj hplace.2⟩

/--
For every file and every list of routines, the findings of a check are those of the three rules,
each as often as a rule says it.  They come in the order of their lines and columns, and those of
one place come as the rules say them: the routines that clash before the rest and, unless several
routines start there, the parameters before the signature.  A finding has the file, the start of a
routine, counted from one, and how grave it is to break its rule.  The key of the first rule is what
two routines share exactly if they clash.
-/
theorem check_exact (file : String) (routines : List Routine) :
    (check file routines).Perm (reports file routines) ∧
      ((check file routines).Pairwise fun a b =>
        a.line < b.line ∨ a.line = b.line ∧ a.column ≤ b.column) ∧
      (∀ line column, (check file routines).filter (·.isAt line column) =
        (reports file routines).filter (·.isAt line column)) ∧
      ((routines.map (·.span.start)).Nodup →
        (check file routines).Pairwise fun a b => a.SamePlace b → a.RuleBefore b) ∧
      (∀ d ∈ check file routines, ∃ r ∈ routines, d.file = file ∧
        d.line = r.span.start.line + 1 ∧ d.column = r.span.start.column + 1 ∧
          d.severity = d.rule.severity) ∧
      ∀ i f j g, clashKey routines i f = clashKey routines j g ↔ Clash routines i f j g := by
  have hplaces := filter_check file routines
  have hperm : (check file routines).Perm (reports file routines) := by
    rw [check_eq]
    exact List.mergeSort_perm _ _
  refine ⟨hperm, ?_, hplaces, ?_, ?_, fun i f j g => clashKey_eq_iff⟩
  · rw [check_eq]
    refine (List.pairwise_mergeSort Finding.placedBefore_trans Finding.placedBefore_total _).imp ?_
    intro a b h
    exact Finding.placedBefore_iff.1 h
  · intro hstarts
    refine List.pairwise_iff_forall_sublist.2 ?_
    intro a b hsub hplace
    -- Two findings of one place follow each other as the rules say them.
    have hpair : [a, b].filter (·.isAt a.line a.column) = [a, b] := by
      simp [Finding.isAt, hplace.1, hplace.2]
    have hfilter := hsub.filter (·.isAt a.line a.column)
    rw [hpair, hplaces] at hfilter
    exact List.pairwise_iff_forall_sublist.1 (reports_pairwise file hstarts)
      (hfilter.trans List.filter_sublist) hplace
  · intro d hd
    obtain ⟨r, hr, message, hfinding⟩ := exists_finding_of_mem_reports (hperm.mem_iff.1 hd)
    rw [hfinding]
    exact ⟨r, hr, rfl, rfl, rfl, rfl⟩

/-- A routine with a name, parameters and a place, whose parameters could be read. -/
def routineNamed (name : String) (names : List String) (span : Span) : Routine :=
  ⟨name, names.zipIdx.map fun (n, i) => .plain n i, .empty, 0, .count names.length, none, false,
    span, none, 0, .block, none, false, none⟩

/-- Two routines with one name, of which the second breaks every rule. -/
def crowdedRoutines : List Routine :=
  [routineNamed "Run" ["a", "*", "*"] ⟨⟨0, 0⟩, ⟨1, 1⟩⟩,
    { routineNamed "RUN" ["a", "b", "A"] ⟨⟨2, 4⟩, ⟨3, 1⟩⟩ with parseError := some "empty" }]

/-- What breaks every rule at one place is reported in the order of the rules. -/
theorem check_exact_crowdedRoutines :
    (crowdedRoutines.map (·.span.start)).Nodup ∧
      (check "main" crowdedRoutines).Pairwise (fun a b => a.SamePlace b → a.RuleBefore b) ∧
        (check "main" crowdedRoutines).map (fun d => (d.rule, d.line, d.column)) =
          [(.duplicateFunction, 3, 5), (.duplicateParameter, 3, 5),
            (.malformedSignature, 3, 5)] := by
  have hstarts : (crowdedRoutines.map (·.span.start)).Nodup := by decide
  refine ⟨hstarts, ?_, ?_⟩
  · exact (check_exact "main" crowdedRoutines).2.2.2.1 hstarts
  · rw [check_eq, List.mergeSort_of_pairwise (by decide +kernel)]
    decide +kernel

end ScriptOutline
