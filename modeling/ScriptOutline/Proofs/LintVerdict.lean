/-
**When a check fails.**

A check analyses the scripts that are not too large, applies three rules to each, counts what they
find by how grave it is, and fails if there is an error.  An error is a function whose class, place
and name an earlier one has, or a parameter whose name an earlier one has; that parameters cannot be
read is no more than a warning.  How the report is written has no part in it, and neither has
whether results are kept, as long as the digest tells the texts apart.  Of two scripts with one key
that it takes for the same, the second is checked with the functions of the first.

Main definitions:

* `repeatCount` — how many members of a list come again;
* `errorCount`, `warningCount` — what the rules find in the functions of a script;
* `Settings.analysed` — the scripts that are not too large, and their functions;
* `HasClash`, `Routine.RepeatsParameter` — what makes a check fail;
* `Context.lintReport` — the report of a check;
* `faultyWorkspace` — a folder with scripts of each kind;
* `twinWorkspace` — a folder with two scripts whose texts have one digest.

Main results:

* `repeatsFrom_length`, `repeatedNames_length` — the rules find what comes again;
* `countOf_check` — the errors and the warnings of one script;
* `Context.outlines_eq_of_kept` — the functions that are checked are those of the scripts;
* `Context.outlines_of_digest_eq` — what is checked where the digest does not tell two texts apart;
* `Context.answerLint_eq` — what a check answers is told by its report;
* `lint_verdict` — **when a check fails, and what it counts**;
* `lint_passes_twinWorkspace` — a check that passes over a repeated parameter.
-/

import Mathlib.Algebra.GroupWithZero.Nat
import Mathlib.Data.List.Nodup
import ScriptOutline.Proofs.RepeatedRoutines
import ScriptOutline.Proofs.SharedStore
import ScriptOutline.Proofs.TimedMap
import ScriptOutline.Text.Digest

set_option relaxedAutoImplicit false
set_option autoImplicit false

namespace ScriptOutline

/-! ### What comes again -/

section

variable {α : Type} [DecidableEq α]

/-- How many members of a list are among those seen before, or come after an equal one. -/
def repeatCount (seen l : List α) : Nat :=
  l.zipIdx.countP fun x => decide (x.1 ∈ seen ∨ x.1 ∈ l.take x.2)

theorem repeatCount_congr {seen seen' : List α} (h : ∀ a, a ∈ seen ↔ a ∈ seen') (l : List α) :
    repeatCount seen l = repeatCount seen' l := by
  simp only [repeatCount, h]

theorem repeatCount_cons (seen : List α) (a : α) (l : List α) :
    repeatCount seen (a :: l) = repeatCount (a :: seen) l + if a ∈ seen then 1 else 0 := by
  have hrest : ((l.zipIdx 1).countP fun x => decide (x.1 ∈ seen ∨ x.1 ∈ (a :: l).take x.2)) =
      repeatCount (a :: seen) l := by
    rw [List.zipIdx_succ, List.countP_map]
    refine List.countP_congr ?_
    intro x _
    simp only [Function.comp_apply, List.take_succ_cons, List.mem_cons, decide_eq_true_eq]
    rw [or_assoc]
    exact or_left_comm
  rw [repeatCount, List.zipIdx_cons, List.countP_cons, hrest]
  simp

/-- Nothing comes again exactly if all members are different, and none was seen. -/
theorem repeatCount_eq_zero_iff {seen l : List α} :
    repeatCount seen l = 0 ↔ l.Nodup ∧ ∀ a ∈ l, a ∉ seen := by
  induction l generalizing seen with
  | nil => simp [repeatCount]
  | cons a l ih =>
      rw [repeatCount_cons, Nat.add_eq_zero_iff, ih, List.nodup_cons]
      by_cases ha : a ∈ seen
      · simp [ha]
      · simp only [ha, if_false, List.mem_cons, not_or, and_true]
        constructor
        · rintro ⟨hnodup, hnew⟩
          refine ⟨⟨fun hmem => (hnew a hmem).1 rfl, hnodup⟩, ?_⟩
          rintro b (rfl | hb)
          · exact ha
          · exact (hnew b hb).2
        · rintro ⟨⟨hnot, hnodup⟩, hnew⟩
          refine ⟨hnodup, fun b hb => ⟨?_, hnew b (Or.inr hb)⟩⟩
          rintro rfl
          exact hnot hb

end

/-! ### One script -/

/-- The first rule finds the functions whose key comes again. -/
theorem repeatsFrom_length (file : String) (seen keyed : List (ClashKey × Routine)) :
    (repeatsFrom file seen keyed).length =
      repeatCount (seen.map Prod.fst) (keyed.map Prod.fst) := by
  induction keyed generalizing seen with
  | nil => rfl
  | cons entry rest ih =>
      obtain ⟨key, r⟩ := entry
      simp only [repeatsFrom, List.map_cons, repeatCount_cons]
      cases hseen : seen.lookup key with
      | none =>
          have hnot : key ∉ seen.map Prod.fst := by
            rw [List.lookup_eq_none_iff] at hseen
            intro hmem
            obtain ⟨p, hp, rfl⟩ := List.mem_map.1 hmem
            exact absurd rfl (bne_iff_ne.1 (hseen p hp))
          simp only [hnot, if_false, Nat.add_zero]
          exact ih ((key, r) :: seen)
      | some first =>
          have hmem : key ∈ seen.map Prod.fst := by
            obtain ⟨before, after, rfl, -⟩ := List.lookup_eq_some_iff.1 hseen
            simp
          have hsame : ∀ k, k ∈ seen.map Prod.fst ↔ k ∈ key :: seen.map Prod.fst := by
            intro k
            rw [List.mem_cons]
            exact ⟨Or.inr, fun h => h.elim (fun heq => heq ▸ hmem) id⟩
          simp only [hmem, if_true, List.length_cons, ih, repeatCount_congr hsame]

/-- The second rule finds the parameters whose name comes again. -/
theorem repeatedNames_length (seen names : List String) :
    (repeatedNames seen names).length = repeatCount seen (names.map lowercase) := by
  induction names generalizing seen with
  | nil => rfl
  | cons name rest ih =>
      simp only [repeatedNames, List.map_cons, repeatCount_cons]
      by_cases hmem : lowercase name ∈ seen
      · have hsame : ∀ n, n ∈ seen ↔ n ∈ lowercase name :: seen := by
          intro n
          rw [List.mem_cons]
          exact ⟨Or.inr, fun h => h.elim (fun heq => heq ▸ hmem) id⟩
        simp only [List.contains_iff_mem, hmem, if_true, List.length_cons, ih,
          repeatCount_congr hsame]
      · simp only [List.contains_iff_mem, hmem, if_false, ih, Nat.add_zero]

/-- How many errors the functions of a script have: the repeated functions and parameters. -/
def errorCount (routines : List Routine) : Nat :=
  repeatCount [] ((keyedRoutines routines).map Prod.fst) +
    (routines.map fun r => repeatCount [] (r.parameterNames.map lowercase)).sum

/-- How many functions of a script have parameters that could not be read. -/
def warningCount (routines : List Routine) : Nat :=
  routines.countP fun r => r.parseError.isSome

theorem severity_of_mem_repeatedRoutines {file : String} {routines : List Routine} {d : Finding}
    (h : d ∈ repeatedRoutines file routines) : d.severity = .error := by
  obtain ⟨before, key, r, after, first, -, -, rfl⟩ := mem_repeatsFrom_iff.1 h
  rfl

theorem severity_of_mem_repeatedParameters {file : String} {r : Routine} {d : Finding}
    (h : d ∈ repeatedParameters file r) : d.severity = .error := by
  obtain ⟨name, -, rfl⟩ := List.mem_map.1 h
  rfl

/-- Findings of one severity all count for it, and for no other. -/
theorem countOf_of_severity (severity : Severity) {findings : List Finding}
    (h : ∀ d ∈ findings, d.severity = severity) (other : Severity) :
    LintReport.countOf other findings = if severity = other then findings.length else 0 := by
  rw [LintReport.countOf]
  split
  · next heq =>
      rw [List.countP_eq_length]
      intro d hd
      rw [h d hd, decide_eq_true_eq]
      exact heq
  · next hne =>
      rw [List.countP_eq_zero]
      intro d hd
      rw [h d hd, decide_eq_true_eq]
      exact hne

/-- The third rule finds at most a warning. -/
theorem countOf_unreadSignature (severity : Severity) (file : String) (r : Routine) :
    LintReport.countOf severity (unreadSignature file r) =
      if severity = .warning ∧ r.parseError.isSome then 1 else 0 := by
  unfold unreadSignature
  cases r.parseError with
  | none => simp [LintReport.countOf]
  | some error =>
      rw [countOf_of_severity .warning (by simp [Routine.finding, Rule.severity])]
      simp [eq_comm]

/-- What the second and the third rule find in the functions of a script. -/
theorem countOf_signatures (file : String) (routines : List Routine) :
    LintReport.countOf .error
        (routines.flatMap fun r => repeatedParameters file r ++ unreadSignature file r) =
      (routines.map fun r => repeatCount [] (r.parameterNames.map lowercase)).sum ∧
    LintReport.countOf .warning
        (routines.flatMap fun r => repeatedParameters file r ++ unreadSignature file r) =
      warningCount routines := by
  induction routines with
  | nil => exact ⟨rfl, rfl⟩
  | cons r rest ih =>
      have hlength : (repeatedParameters file r).length =
          repeatCount [] (r.parameterNames.map lowercase) := by
        rw [repeatedParameters, List.length_map, repeatedNames_length]
      have herror : ∀ d ∈ repeatedParameters file r, d.severity = .error :=
        fun d hd => severity_of_mem_repeatedParameters hd
      have hrepeats := countOf_of_severity .error herror
      have hunread (severity : Severity) := countOf_unreadSignature severity file r
      simp only [LintReport.countOf, warningCount] at hrepeats hunread ih ⊢
      simp only [List.flatMap_cons, List.countP_append, hrepeats, hunread, ih, List.map_cons,
        List.sum_cons, List.countP_cons, hlength]
      constructor
      · simp
      · simp [Nat.add_comm]

/-- What a check finds in one script. -/
theorem countOf_check (file : String) (routines : List Routine) :
    LintReport.countOf .error (check file routines) = errorCount routines ∧
      LintReport.countOf .warning (check file routines) = warningCount routines := by
  have hsort (severity : Severity) : LintReport.countOf severity (check file routines) =
      LintReport.countOf severity (repeatedRoutines file routines) + LintReport.countOf severity
        (routines.flatMap fun r => repeatedParameters file r ++ unreadSignature file r) := by
    rw [LintReport.countOf, check, (List.mergeSort_perm _ _).countP_eq, List.countP_append]
    rfl
  have hlength : (repeatedRoutines file routines).length =
      repeatCount [] ((keyedRoutines routines).map Prod.fst) :=
    repeatsFrom_length file [] (keyedRoutines routines)
  have herror : ∀ d ∈ repeatedRoutines file routines, d.severity = .error :=
    fun d hd => severity_of_mem_repeatedRoutines hd
  have hrepeats := countOf_of_severity .error herror
  obtain ⟨herrors, hwarnings⟩ := countOf_signatures file routines
  constructor
  · rw [hsort, hrepeats, herrors, if_pos rfl, hlength, errorCount]
  · rw [hsort, hrepeats, hwarnings, if_neg (by decide), Nat.zero_add]

/-- What a check finds in some scripts is what it finds in each of them. -/
theorem countOf_checks {severity : Severity} {count : List Routine → Nat}
    (hcount : ∀ file routines, LintReport.countOf severity (check file routines) = count routines)
    (outlines : List FileOutline) :
    LintReport.countOf severity ((outlines.map fun f => check f.path f.routines).flatten) =
      (outlines.map fun f => count f.routines).sum := by
  rw [LintReport.countOf, List.countP_flatten, List.map_map]
  refine congrArg List.sum (List.map_congr_left ?_)
  intro f _
  exact hcount f.path f.routines

/-- Two functions of a script have one class, one function around them and one name. -/
def HasClash (routines : List Routine) : Prop :=
  ∃ i j f g, i < j ∧ routines[i]? = some f ∧ routines[j]? = some g ∧
    f.className.map lowercase = g.className.map lowercase ∧
      parentIndex? routines i f = parentIndex? routines j g ∧ lowercase f.name = lowercase g.name

/-- Two parameters of a function have one name, which is no star. -/
def Routine.RepeatsParameter (r : Routine) : Prop :=
  ∃ (i j : Nat) (p q : Parameter), i < j ∧ r.parameters[i]? = some p ∧ r.parameters[j]? = some q ∧
    p.name ≠ Parameter.anonymous ∧ q.name ≠ Parameter.anonymous ∧
      lowercase p.name = lowercase q.name

theorem sum_map_ne_zero_iff {α : Type} {f : α → Nat} {l : List α} :
    (l.map f).sum ≠ 0 ↔ ∃ a ∈ l, f a ≠ 0 := by
  rw [ne_eq, List.sum_eq_zero_iff_forall_eq_nat]
  simp only [List.mem_map, forall_exists_index, and_imp, forall_apply_eq_imp_iff₂]
  push Not
  exact Iff.rfl

/-- A relation fails for a list exactly if it fails for the members at two of its places. -/
theorem not_pairwise_iff {α : Type} {R : α → α → Prop} {l : List α} :
    ¬l.Pairwise R ↔ ∃ (i j : Nat) (a b : α), i < j ∧ l[i]? = some a ∧ l[j]? = some b ∧ ¬R a b := by
  rw [List.pairwise_iff_getElem]
  constructor
  · intro h
    push Not at h
    obtain ⟨i, j, hi, hj, hlt, hnot⟩ := h
    exact ⟨i, j, _, _, hlt, List.getElem?_eq_getElem hi, List.getElem?_eq_getElem hj, hnot⟩
  · rintro ⟨i, j, a, b, hlt, ha, hb, hnot⟩ h
    obtain ⟨hi, rfl⟩ := List.getElem?_eq_some_iff.1 ha
    obtain ⟨hj, rfl⟩ := List.getElem?_eq_some_iff.1 hb
    exact hnot (h i j hi hj hlt)

theorem repeatCount_keys_ne_zero_iff {routines : List Routine} :
    repeatCount [] ((keyedRoutines routines).map Prod.fst) ≠ 0 ↔ HasClash routines := by
  have hget (n : Nat) : ((keyedRoutines routines).map Prod.fst)[n]? =
      routines[n]?.map (clashKey routines n) := by
    rw [List.getElem?_map, keyedRoutines_getElem?, Option.map_map]
    rfl
  rw [ne_eq, repeatCount_eq_zero_iff, List.Nodup]
  simp only [List.not_mem_nil, not_false_eq_true, implies_true, and_true]
  rw [not_pairwise_iff]
  simp only [hget, ne_eq, not_not]
  constructor
  · rintro ⟨i, j, key, _, hlt, hi, hj, rfl⟩
    obtain ⟨f, hf, hfkey⟩ := Option.map_eq_some_iff.1 hi
    obtain ⟨g, hg, hgkey⟩ := Option.map_eq_some_iff.1 hj
    have hkey := hfkey.trans hgkey.symm
    simp only [clashKey, ClashKey.mk.injEq] at hkey
    exact ⟨i, j, f, g, hlt, hf, hg, hkey⟩
  · rintro ⟨i, j, f, g, hlt, hf, hg, hclass, hparent, hname⟩
    refine ⟨i, j, clashKey routines i f, clashKey routines j g, hlt, by rw [hf]; rfl,
      by rw [hg]; rfl, ?_⟩
    rw [clashKey, clashKey, hclass, hparent, hname]

theorem repeatCount_names_ne_zero_iff {r : Routine} :
    repeatCount [] (r.parameterNames.map lowercase) ≠ 0 ↔ r.RepeatsParameter := by
  rw [ne_eq, repeatCount_eq_zero_iff, List.Nodup]
  simp only [List.not_mem_nil, not_false_eq_true, implies_true, and_true]
  rw [Routine.parameterNames, List.pairwise_map, List.pairwise_filter, List.pairwise_map,
    not_pairwise_iff]
  simp only [Routine.RepeatsParameter, decide_eq_true_eq, ne_eq, Classical.not_imp, not_not]

/-- A script has an error exactly if two of its functions, or two parameters of one, clash. -/
theorem errorCount_ne_zero_iff {routines : List Routine} :
    errorCount routines ≠ 0 ↔ HasClash routines ∨ ∃ r ∈ routines, r.RepeatsParameter := by
  have hsum : (routines.map fun r => repeatCount [] (r.parameterNames.map lowercase)).sum ≠ 0 ↔
      ∃ r ∈ routines, r.RepeatsParameter := by
    rw [sum_map_ne_zero_iff]
    simp only [repeatCount_names_ne_zero_iff]
  rw [← repeatCount_keys_ne_zero_iff, ← hsum, errorCount]
  omega

/-! ### All scripts -/

/-- The scripts below a folder, where those that are picked stand in order. -/
theorem Workspace.sources_of_pairwise {w : Workspace} {s : Settings} {path : String}
    {location : List String} {entries : List (String × FileTree)}
    {files : List (List String × List UInt8)} (hlocate : w.locate path = .ok location)
    (htree : w.files.at? location = some (.folder entries))
    (hfiles : (FileTree.folder entries).visibleFiles.filter (fun file => s.picks file.1) = files)
    (hsorted : files.Pairwise fun a b => precedes a.1 b.1 = true) :
    w.sources s path = .ok (files.map fun file => (shownName file.1, file.2)) := by
  have hscripts : s.scripts (.folder entries) = files := by
    rw [Settings.scripts, hfiles]
    exact List.mergeSort_of_pairwise hsorted
  simp only [sources, hlocate, htree, hscripts]
  rfl

/-- The functions of each script that is not too large. -/
def Settings.analysed (s : Settings) (sources : List (String × List UInt8)) :
    List (List Routine) :=
  (sources.filter fun source => s.admits source.2).map fun source =>
    routinesOf (scriptText source.2).toList 0

variable {δ : Type} [DecidableEq δ]

/-- Without a store any number of questions are answered anew. -/
theorem Session.analyzeAll_uncached {s : Session δ} (h : s.store = none) (clock : Nat → Nat)
    (requests : List Request) :
    (s.analyzeAll clock requests).1 = requests.map Request.routines := by
  induction requests generalizing clock with
  | nil => rfl
  | cons r rest ih =>
      simp only [Session.analyzeAll, s.analyze_uncached (clock 0) (clock 1) r h, List.map_cons, ih]

/--
A document is answered with what was found for the one before it, if both have one key and one
version, and their texts one digest.
-/
theorem Session.analyzeAll_of_digest_eq {s : Session δ} {lifetime : Nat}
    (hstore : s.store = some (Store.empty lifetime)) (r other : Request)
    (hkey : documentKey other.document = documentKey r.document)
    (hversion : other.version = r.version) (hdigest : s.digest other.text = s.digest r.text)
    {clock : Nat → Nat} (hage : clock 2 - clock 1 < lifetime % UInt64.size) :
    (s.analyzeAll clock [r, other]).1 = [r.routines, r.routines] := by
  have hmiss : known? s.digest (Store.empty lifetime) (clock 0) r = none := rfl
  have hfound : known? s.digest (remember s.digest (Store.empty lifetime) (clock 1) r r.routines)
      (clock 2) other = some r.routines := by
    have hyoung : clock 2 - clock 1 <
        (Store.empty lifetime : Store (Snapshot δ)).lifetime % UInt64.size := hage
    simp [known?, remember, Store.find?_insert _ hkey, hyoung, hversion, hdigest]
  simp [analyzeAll, analyze, hstore, hmiss, hfound]

namespace Context

variable (c : Context δ) (sources : List (String × List UInt8))

omit [DecidableEq δ] in
/-- The functions that are asked for are those of the scripts that are not too large. -/
theorem routines_requests :
    (c.requests sources).map Request.routines = c.settings.analysed sources := by
  induction sources with
  | nil => rfl
  | cons source rest ih =>
      simp only [requests, Settings.analysed, Settings.textOf?] at ih ⊢
      rw [List.filterMap_cons, List.filter_cons]
      cases c.settings.admits source.2 with
      | false => simpa using ih
      | true => simpa [request, Request.routines] using ih

/-- The functions that are found are those asked for, if texts that are kept are told apart. -/
theorem outlines_eq_of_kept (hd : c.settings.cache.enabled = true →
    TellsApart c.digest ((c.requests sources).map Request.text)) :
    c.outlines sources = (c.requests sources).map fun r => ⟨r.document, r.routines⟩ := by
  cases henabled : c.settings.cache.enabled with
  | true => exact c.outlines_eq sources (hd henabled)
  | false =>
      have hstore : c.session.store = none := by
        simp [session, Settings.session, Settings.lifetime?, henabled]
      simp only [outlines]
      rw [Session.analyzeAll_uncached hstore, List.zipWith_map_right, List.zipWith_self]

/-- The report on scripts, and what it counts. -/
theorem countOf_outlines (hd : c.settings.cache.enabled = true →
    TellsApart c.digest ((c.requests sources).map Request.text)) {severity : Severity}
    {count : List Routine → Nat}
    (hcount : ∀ file routines, LintReport.countOf severity (check file routines) = count routines) :
    LintReport.countOf severity
        (((c.outlines sources).map fun f => check f.path f.routines).flatten) =
      ((c.settings.analysed sources).map count).sum := by
  rw [countOf_checks hcount, c.outlines_eq_of_kept sources hd, ← c.routines_requests sources,
    List.map_map, List.map_map]
  rfl

theorem length_outlines (hd : c.settings.cache.enabled = true →
    TellsApart c.digest ((c.requests sources).map Request.text)) :
    (c.outlines sources).length = sources.countP fun source => c.settings.admits source.2 := by
  have hlength := congrArg List.length (c.routines_requests sources)
  rw [List.length_map, Settings.analysed, List.length_map,
    ← List.countP_eq_length_filter] at hlength
  rw [c.outlines_eq_of_kept sources hd, List.length_map, hlength]

/--
Of two scripts with one key whose texts have one digest, the second is given the functions of the
first, as long as these are kept.
-/
theorem outlines_of_digest_eq {name other : String} {bytes otherBytes : List UInt8}
    (henabled : c.settings.cache.enabled = true) (hbytes : c.settings.admits bytes = true)
    (hother : c.settings.admits otherBytes = true) (hkey : documentKey other = documentKey name)
    (hdigest : c.digest (scriptText otherBytes) = c.digest (scriptText bytes))
    (hage : c.clock 2 - c.clock 1 < 1000 * c.settings.cache.seconds.toNat % UInt64.size) :
    c.outlines [(name, bytes), (other, otherBytes)] =
      [⟨name, routinesOf (scriptText bytes).toList 0⟩,
        ⟨other, routinesOf (scriptText bytes).toList 0⟩] := by
  have hstore : c.session.store = some (Store.empty (1000 * c.settings.cache.seconds.toNat)) := by
    simp [session, Settings.session, Settings.lifetime?, henabled]
  have hrequests : c.requests [(name, bytes), (other, otherBytes)] =
      [request name (scriptText bytes), request other (scriptText otherBytes)] := by
    simp [requests, Settings.textOf?, hbytes, hother]
  have hfound := Session.analyzeAll_of_digest_eq hstore (request name (scriptText bytes))
    (request other (scriptText otherBytes)) hkey rfl hdigest hage
  simp only [outlines, hrequests, hfound]
  rfl

/-- The report of a check on some scripts. -/
def lintReport : LintReport :=
  LintReport.ofFiles ((c.outlines sources).map fun f => check f.path f.routines)

/-- What a check answers is told by its report. -/
theorem answerLint_eq {w : Workspace} {path : String}
    (hsources : w.sources c.settings path = .ok sources) (format : OutputFormat) :
    answerLint w c path format =
      .ok ⟨if (c.lintReport sources).passed then exitSuccess else exitFailed,
        format.write c.color (c.lintReport sources).toJson (c.lintReport sources).pieces⟩ := by
  simp only [answerLint, hsources]
  rfl

/-- A check passes if its report counts no error. -/
theorem passed_lintReport :
    (c.lintReport sources).passed = true ↔ (c.lintReport sources).errors = 0 :=
  LintReport.passed_ofFiles _

/-- The errors of a check are those of the functions that it is given. -/
theorem errors_lintReport : (c.lintReport sources).errors =
    ((c.outlines sources).map fun f => errorCount f.routines).sum :=
  countOf_checks (fun file routines => (countOf_check file routines).1) _

end Context

/--
A check of scripts writes its report in the format that is asked for, without results kept or with
results kept under a digest that tells the texts apart, and fails exactly if a script that is not
too large has two functions with one class, one function around them and one name, or a function two
of whose parameters have one name.  The report counts what is repeated as errors, the functions
whose parameters could not be read as warnings, and the scripts that are not too large.  It says
that the check passed if there is no error.
-/
theorem lint_verdict (w : Workspace) (c : Context δ) (path : String) (format : OutputFormat)
    {sources : List (String × List UInt8)} (hsources : w.sources c.settings path = .ok sources)
    (hd : c.settings.cache.enabled = true →
      TellsApart c.digest (c.textsFor w (.lint path format))) :
    ∃ (report : LintReport) (outcome : Outcome), answerLint w c path format = .ok outcome ∧
      outcome.output = format.write c.color report.toJson report.pieces ∧
      (outcome.exitCode = exitFailed ∨ outcome.exitCode = exitSuccess) ∧
      (outcome.exitCode = exitFailed ↔ ∃ routines ∈ c.settings.analysed sources,
        HasClash routines ∨ ∃ r ∈ routines, r.RepeatsParameter) ∧
      report.errors = ((c.settings.analysed sources).map errorCount).sum ∧
      report.warnings = ((c.settings.analysed sources).map warningCount).sum ∧
      report.filesScanned = sources.countP (fun source => c.settings.admits source.2) ∧
      (report.passed = true ↔ report.errors = 0) := by
  simp only [Context.textsFor, hsources] at hd
  have hpassed := c.passed_lintReport sources
  have herrors : (c.lintReport sources).errors =
      ((c.settings.analysed sources).map errorCount).sum :=
    c.countOf_outlines sources hd fun file routines => (countOf_check file routines).1
  refine ⟨c.lintReport sources, _, c.answerLint_eq sources hsources format, rfl, ?_, ?_, herrors,
    ?_, ?_, hpassed⟩
  · simp only
    split
    · exact Or.inr rfl
    · exact Or.inl rfl
  · have hexit (passed : Bool) :
        (if passed then exitSuccess else exitFailed) = exitFailed ↔ ¬passed = true := by
      cases passed <;> decide
    simp only [← errorCount_ne_zero_iff]
    rw [hexit, hpassed, herrors, ← sum_map_ne_zero_iff]
  · exact c.countOf_outlines sources hd fun file routines => (countOf_check file routines).2
  · rw [← c.length_outlines sources hd, Context.lintReport, LintReport.ofFiles, List.length_map]

/-- The bytes of a text whose characters all have one byte. -/
def asciiBytes (text : String) : List UInt8 :=
  text.toList.map fun c => UInt8.ofNat c.toNat

/-- A script with a function and a parameter that come again. -/
def faultyScript : List UInt8 :=
  asciiBytes "F(a, A) \x7b\n\x7d\nf() \x7b\n\x7d"

/-- A script with parameters that cannot be read. -/
def unreadScript : List UInt8 :=
  asciiBytes "G(a b) \x7b\n\x7d"

/-- A script with a function that comes again, which is longer than the others. -/
def longScript : List UInt8 :=
  asciiBytes "H() \x7b\n\x7d\nH() \x7b\n\x7d\n; and so on"

/-- A folder with these scripts, of which the first and the last share a key. -/
def faultyWorkspace : Workspace :=
  ⟨.folder [("lib.ahk", .file faultyScript), ("old.ahk", .file longScript),
    ("sub", .folder [("LIB.ahk2", .file unreadScript)])], [], []⟩

/-- Settings that pass over long scripts. -/
def shortSettings : Settings :=
  { analysis := { maxBytes := 24 } }

theorem faultyWorkspace_sources : faultyWorkspace.sources shortSettings "." =
    .ok [("lib.ahk", faultyScript), ("old.ahk", longScript), ("sub/LIB.ahk2", unreadScript)] := by
  have hfiles : (faultyWorkspace.files.visibleFiles.filter fun file =>
      shortSettings.picks file.1) = [(["lib.ahk"], faultyScript), (["old.ahk"], longScript),
        (["sub", "LIB.ahk2"], unreadScript)] := by
    decide +kernel
  rw [Workspace.sources_of_pairwise rfl rfl hfiles (by decide +kernel)]
  decide +kernel

/-- The check fails on the function and the parameter, and passes over the long script. -/
theorem lint_verdict_faultyWorkspace :
    TellsApart id ((Context.mk shortSettings id id false).textsFor faultyWorkspace
      (.lint "." .json)) ∧
    ∃ (report : LintReport) (outcome : Outcome),
      answerLint faultyWorkspace ⟨shortSettings, id, id, false⟩ "." .json = .ok outcome ∧
        outcome.output = OutputFormat.json.write false report.toJson report.pieces ∧
          outcome.exitCode = exitFailed ∧ report.errors = 2 ∧ report.warnings = 1 ∧
            report.filesScanned = 2 ∧ report.passed = false := by
  have hd : TellsApart id ((Context.mk shortSettings id id false).textsFor faultyWorkspace
      (.lint "." .json)) := fun _ _ _ _ h => h
  obtain ⟨report, outcome, hanswer, houtput, -, hfails, herrors, hwarnings, hscanned, hpassed⟩ :=
    lint_verdict faultyWorkspace ⟨shortSettings, id, id, false⟩ "." .json faultyWorkspace_sources
      fun _ => hd
  have herrors' : report.errors = 2 := by
    rw [herrors]
    simp only [Settings.analysed, routinesOf, assemble_eq]
    decide +kernel
  have hwarnings' : report.warnings = 1 := by
    rw [hwarnings]
    simp only [Settings.analysed, routinesOf, assemble_eq]
    decide +kernel
  have hscanned' : report.filesScanned = 2 := by
    rw [hscanned]
    decide +kernel
  refine ⟨hd, report, outcome, hanswer, houtput, ?_, herrors', hwarnings', hscanned', ?_⟩
  · rw [hfails]
    simp only [← errorCount_ne_zero_iff]
    rw [← sum_map_ne_zero_iff, ← herrors, herrors']
    decide
  · rw [← Bool.not_eq_true, hpassed, herrors']
    decide

/-- A script without a fault. -/
def plainTwin : List UInt8 :=
  asciiBytes "F5f950e0609da4507()\x7b\x7d"

/-- A script with a parameter that comes again. -/
def faultyTwin : List UInt8 :=
  asciiBytes "F96b422ace6f4f50b(a,a)\x7b\x7d"

/-- A folder with both, which share a key.  Their texts have one digest. -/
def twinWorkspace : Workspace :=
  ⟨.folder [("a", .folder [("lib.ahk", .file plainTwin)]),
    ("b", .folder [("lib.ahk", .file faultyTwin)])], [], []⟩

theorem twinWorkspace_sources : twinWorkspace.sources {} "." =
    .ok [("a/lib.ahk", plainTwin), ("b/lib.ahk", faultyTwin)] := by
  have hfiles : (twinWorkspace.files.visibleFiles.filter fun file =>
      ({} : Settings).picks file.1) = [(["a", "lib.ahk"], plainTwin),
        (["b", "lib.ahk"], faultyTwin)] := by
    decide +kernel
  rw [Workspace.sources_of_pairwise rfl rfl hfiles (by decide +kernel)]
  decide +kernel

/--
With the settings that the program has by default, the check passes over the repeated parameter: the
second script is given the functions of the first one.
-/
theorem lint_passes_twinWorkspace :
    ({} : Settings).error? = none ∧
    twinWorkspace.sources {} "." = .ok [("a/lib.ahk", plainTwin), ("b/lib.ahk", faultyTwin)] ∧
    (∃ routines ∈ ({} : Settings).analysed [("a/lib.ahk", plainTwin), ("b/lib.ahk", faultyTwin)],
      HasClash routines ∨ ∃ r ∈ routines, r.RepeatsParameter) ∧
    ∃ (report : LintReport) (outcome : Outcome),
      answerLint twinWorkspace ⟨{}, textDigest, id, false⟩ "." .json = .ok outcome ∧
        outcome.output = OutputFormat.json.write false report.toJson report.pieces ∧
          outcome.exitCode = exitSuccess ∧ report.errors = 0 ∧ report.passed = true := by
  have hfaulty : errorCount (routinesOf (scriptText faultyTwin).toList 0) ≠ 0 := by
    simp only [routinesOf, assemble_eq]
    decide +kernel
  have hplain : errorCount (routinesOf (scriptText plainTwin).toList 0) = 0 := by
    simp only [routinesOf, assemble_eq]
    decide +kernel
  have hsmall : ({} : Settings).admits plainTwin = true ∧
      ({} : Settings).admits faultyTwin = true := by
    decide
  have hkey : documentKey "b/lib.ahk" = documentKey "a/lib.ahk" := by decide +kernel
  have hdigest : textDigest (scriptText faultyTwin) = textDigest (scriptText plainTwin) := by
    decide +kernel
  have houtlines := Context.outlines_of_digest_eq ⟨{}, textDigest, id, false⟩ rfl hsmall.1
    hsmall.2 hkey hdigest (by decide)
  have hanalysed : ({} : Settings).analysed [("a/lib.ahk", plainTwin), ("b/lib.ahk", faultyTwin)] =
      [routinesOf (scriptText plainTwin).toList 0, routinesOf (scriptText faultyTwin).toList 0] := by
    simp [Settings.analysed, hsmall]
  let c : Context UInt64 := ⟨{}, textDigest, id, false⟩
  have herrors :
      (c.lintReport [("a/lib.ahk", plainTwin), ("b/lib.ahk", faultyTwin)]).errors = 0 := by
    rw [c.errors_lintReport, houtlines]
    simp [hplain]
  have hpassed := (c.passed_lintReport _).2 herrors
  refine ⟨by decide, twinWorkspace_sources, ⟨_, ?_, errorCount_ne_zero_iff.1 hfaulty⟩, _, _,
    c.answerLint_eq _ twinWorkspace_sources .json, rfl, if_pos hpassed, herrors, hpassed⟩
  simp [hanalysed]

end ScriptOutline
