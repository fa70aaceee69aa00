/-
**Which functions are reported as declared again.**

A function is reported if an earlier one has its name, the same function around it and the same
class.  Functions are told apart by where they are, but classes by their names alone, so that the
methods of two classes with one name are taken for methods of one.  Besides, a function that is
still being typed may run past the end of the class around it; what is nested in it then belongs to
no class.

Main definitions:

* `routineAround?`, `classAround?` — the innermost function and the innermost class around another;
* `Routine.ClassesShareName`, `RunsPastClass` — how functions of different classes come to clash;
* `twinClasses` — two classes of which each has an inner one with the same name.

Main results:

* `mem_repeatsFrom_iff` — what is reported is declared again, and first where the report says;
* `parentIndex?_eq_iff` — functions are told apart by their indices;
* `className_eq` — the class of a function is the one around it, if no function comes between;
* `reported_again_iff` — **when a function is reported as declared again**.
-/

import Mathlib.Data.Nat.Find
import ScriptOutline.Finding.Check
import ScriptOutline.Proofs.InnermostVariables
import ScriptOutline.Proofs.LowerRecords
import ScriptOutline.Proofs.RecordPlaces

set_option relaxedAutoImplicit false
set_option autoImplicit false

namespace ScriptOutline

/-! ### Repeated keys -/

/-- The finding that a routine clashes with an earlier one. -/
def Routine.declaredAgain (file : String) (r first : Routine) : Finding :=
  r.finding file .duplicateFunction
    (r.qualifiedName ++ " is already declared at line " ++ toString (first.span.start.line + 1))

section

variable {file : String} {seen keyed before : List (ClashKey × Routine)} {key key' : ClashKey}
  {r first : Routine}

/-- A key that was seen before adds nothing to what was seen. -/
theorem lookup_of_seen (h : seen.lookup key = some first) :
    (seen ++ (key, r) :: before).lookup key' = (seen ++ before).lookup key' := by
  by_cases hkey : key' = key
  · rw [hkey, List.lookup_append, List.lookup_append, h]
    rfl
  · simp [List.lookup_append, List.lookup_cons, beq_eq_false_iff_ne.2 hkey]

/-- A new key may be put in front of what was seen. -/
theorem lookup_of_not_seen (h : seen.lookup key = none) :
    (seen ++ (key, r) :: before).lookup key' = ((key, r) :: seen ++ before).lookup key' := by
  by_cases hkey : key' = key
  · rw [hkey, List.lookup_append, h]
    simp
  · simp [List.lookup_append, List.lookup_cons, beq_eq_false_iff_ne.2 hkey]

/-- What is reported has a key that came before, and the report names the first with that key. -/
theorem mem_repeatsFrom_iff {d : Finding} : d ∈ repeatsFrom file seen keyed ↔
    ∃ before key r after first, keyed = before ++ (key, r) :: after ∧
      (seen ++ before).lookup key = some first ∧ d = r.declaredAgain file first := by
  induction keyed generalizing seen with
  | nil => simp [repeatsFrom]
  | cons entry rest ih =>
      obtain ⟨k, q⟩ := entry
      simp only [repeatsFrom]
      constructor
      · intro h
        split at h
        · next first hfirst =>
            rcases List.mem_cons.1 h with rfl | h
            · exact ⟨[], k, q, rest, first, rfl, by rw [List.append_nil]; exact hfirst, rfl⟩
            · obtain ⟨before, key, r, after, first', rfl, hlookup, hd⟩ := ih.1 h
              refine ⟨(k, q) :: before, key, r, after, first', rfl, ?_, hd⟩
              rw [lookup_of_seen hfirst]
              exact hlookup
        · next hnone =>
            obtain ⟨before, key, r, after, first, rfl, hlookup, hd⟩ := ih.1 h
            refine ⟨(k, q) :: before, key, r, after, first, rfl, ?_, hd⟩
            rw [lookup_of_not_seen hnone]
            exact hlookup
      · rintro ⟨before, key, r, after, first, hsplit, hlookup, rfl⟩
        cases before with
        | nil =>
            obtain ⟨hentry, rfl⟩ := List.cons.inj hsplit
            obtain ⟨rfl, rfl⟩ := Prod.mk.inj hentry
            rw [List.append_nil] at hlookup
            rw [hlookup]
            exact List.mem_cons_self
        | cons entry before =>
            obtain ⟨rfl, rfl⟩ := List.cons.inj hsplit
            split
            · next first' hfirst =>
                rw [lookup_of_seen hfirst] at hlookup
                exact List.mem_cons_of_mem _
                  (ih.2 ⟨before, key, r, after, first, rfl, hlookup, rfl⟩)
            · next hnone =>
                rw [lookup_of_not_seen hnone] at hlookup
                exact ih.2 ⟨before, key, r, after, first, rfl, hlookup, rfl⟩

end

/-- The routines and their keys stand side by side. -/
theorem keyedRoutines_getElem? (routines : List Routine) (n : Nat) :
    (keyedRoutines routines)[n]? = routines[n]?.map fun r => (clashKey routines n r, r) := by
  simp only [keyedRoutines, List.getElem?_map, List.getElem?_zipIdx, Option.map_map, Nat.zero_add]
  rfl

/-- The first of the routines before an index that has a given key. -/
theorem lookup_take_keyedRoutines {routines : List Routine} {j : Nat} {key : ClashKey}
    {f : Routine} : ((keyedRoutines routines).take j).lookup key = some f ↔
      ∃ i, i < j ∧ routines[i]? = some f ∧ clashKey routines i f = key ∧
        ∀ k r, k < i → routines[k]? = some r → clashKey routines k r ≠ key := by
  have hget {n : Nat} (hn : n < j) := (List.getElem?_take_of_lt hn).trans
    (keyedRoutines_getElem? routines n)
  rw [List.lookup_eq_some_iff]
  constructor
  · rintro ⟨earlier, later, htake, hearlier⟩
    have hlength := congrArg List.length htake
    simp only [List.length_take, List.length_append, List.length_cons] at hlength
    have hi : earlier.length < j := by omega
    have hf := hget hi
    rw [htake, List.getElem?_append_right (Nat.le_refl _), Nat.sub_self,
      List.getElem?_cons_zero] at hf
    obtain ⟨f', hf', hentry⟩ := Option.map_eq_some_iff.1 hf.symm
    obtain ⟨hkey, rfl⟩ := Prod.mk.inj hentry
    refine ⟨earlier.length, hi, hf', hkey, ?_⟩
    intro k r hk hr heq
    have hr' := hget (Nat.lt_trans hk hi)
    rw [htake, List.getElem?_append_left hk, hr, Option.map_some, heq] at hr'
    exact absurd rfl (bne_iff_ne.1 (hearlier _ (List.mem_of_getElem? hr')))
  · rintro ⟨i, hi, hf, hkey, hfirst⟩
    have hf' := hget hi
    rw [hf, Option.map_some, hkey] at hf'
    obtain ⟨hlt, hentry⟩ := List.getElem?_eq_some_iff.1 hf'
    refine ⟨((keyedRoutines routines).take j).take i,
      ((keyedRoutines routines).take j).drop (i + 1), ?_, ?_⟩
    · rw [← hentry, ← List.drop_eq_getElem_cons hlt, List.take_append_drop]
    · intro entry hmem
      obtain ⟨k, hk⟩ := List.mem_iff_getElem?.1 hmem
      have hki : k < i := by
        have hlength := (List.getElem?_eq_some_iff.1 hk).1
        rw [List.length_take] at hlength
        omega
      rw [List.getElem?_take_of_lt hki, hget (Nat.lt_trans hki hi)] at hk
      obtain ⟨r, hr, rfl⟩ := Option.map_eq_some_iff.1 hk
      exact bne_iff_ne.2 fun heq => hfirst k r hki hr heq.symm

/-- What is reported is a routine whose key came before, and the report names the first with it. -/
theorem mem_repeatedRoutines_iff {file : String} {routines : List Routine} {d : Finding} :
    d ∈ repeatedRoutines file routines ↔ ∃ i j f g, i < j ∧ routines[i]? = some f ∧
      routines[j]? = some g ∧ clashKey routines i f = clashKey routines j g ∧
        (∀ k r, k < i → routines[k]? = some r → clashKey routines k r ≠ clashKey routines j g) ∧
          d = g.declaredAgain file f := by
  rw [repeatedRoutines, mem_repeatsFrom_iff]
  simp only [List.nil_append]
  constructor
  · rintro ⟨before, key, g, after, f, hkeyed, hlookup, rfl⟩
    have hbefore : before = (keyedRoutines routines).take before.length := by
      conv_rhs => rw [hkeyed, List.take_left]
    rw [hbefore, lookup_take_keyedRoutines] at hlookup
    obtain ⟨i, hi, hf, hkey, hfirst⟩ := hlookup
    have hg := keyedRoutines_getElem? routines before.length
    rw [hkeyed, List.getElem?_append_right (Nat.le_refl _), Nat.sub_self,
      List.getElem?_cons_zero] at hg
    obtain ⟨g', hg', hentry⟩ := Option.map_eq_some_iff.1 hg.symm
    obtain ⟨rfl, rfl⟩ := Prod.mk.inj hentry
    exact ⟨i, before.length, f, g', hi, hf, hg', hkey, hfirst, rfl⟩
  · rintro ⟨i, j, f, g, hlt, hf, hg, hkey, hfirst, rfl⟩
    have hentry := keyedRoutines_getElem? routines j
    rw [hg, Option.map_some] at hentry
    obtain ⟨hj, hentry⟩ := List.getElem?_eq_some_iff.1 hentry
    refine ⟨(keyedRoutines routines).take j, _, g, (keyedRoutines routines).drop (j + 1), f, ?_,
      lookup_take_keyedRoutines.2 ⟨i, hlt, hf, hkey, hfirst⟩, rfl⟩
    rw [← hentry, ← List.drop_eq_getElem_cons hj, List.take_append_drop]

/-! ### Functions around others -/

/-- The innermost other routine around one. -/
def routineAround? (routines : List Routine) (r : Routine) : Option Routine :=
  latest? (·.span.start)
    (routines.filter fun other => other.span ≠ r.span && other.span.encloses r.span)

/-- The innermost class around a span. -/
def classAround? (s : Source) (t : Span) : Option ClassBlock :=
  latest? (·.span.start) ((classBlocks s).filter (·.span.encloses t))

/-- Something that starts late is in a list exactly if what starts last does so. -/
theorem latest?_any {α : Type} {start : α → Position} {l : List α} (p : Position) :
    (latest? start l).any (fun a => decide (p < start a)) =
      l.any fun a => decide (p < start a) := by
  rw [Bool.eq_iff_iff, Option.any_eq_true, List.any_eq_true]
  constructor
  · rintro ⟨a, ha, hlt⟩
    exact ⟨a, (latest?_spec ha).1, hlt⟩
  · rintro ⟨a, ha, hlt⟩
    cases hlast : latest? start l with
    | none =>
        rw [latest?_eq_none_iff.1 hlast] at ha
        simp at ha
    | some b =>
        rw [decide_eq_true_eq] at hlt
        exact ⟨b, rfl, decide_eq_true (lt_of_lt_of_le hlt ((latest?_spec hlast).2 a ha))⟩

section

variable {s : Source} {version : Int32} {f g : Routine}

/-- Routines come in the order of their starts. -/
theorem start_lt_iff {i j : Nat} (hf : (assemble s version)[i]? = some f)
    (hg : (assemble s version)[j]? = some g) : f.span.start < g.span.start ↔ i < j := by
  have hp := List.pairwise_iff_getElem.1 (assemble_pairwise s version)
  obtain ⟨hi, rfl⟩ := List.getElem?_eq_some_iff.1 hf
  obtain ⟨hj, rfl⟩ := List.getElem?_eq_some_iff.1 hg
  constructor
  · intro h
    by_contra hle
    rcases Nat.lt_or_eq_of_le (Nat.not_lt.1 hle) with hlt | rfl
    · exact absurd h (not_lt_of_gt (hp j i hj hi hlt))
    · exact absurd h (lt_irrefl _)
  · exact hp i j hi hj

theorem index_eq_of_start_eq {i j : Nat} (hf : (assemble s version)[i]? = some f)
    (hg : (assemble s version)[j]? = some g) (h : f.span.start = g.span.start) : i = j := by
  have hnot := (start_lt_iff hf hg).not.1 (not_lt_of_ge (ge_of_eq h))
  have hnot' := (start_lt_iff hg hf).not.1 (not_lt_of_ge (le_of_eq h))
  omega

/-- What is around a routine, and its index, are found together. -/
theorem exists_around {i : Nat} (hf : (assemble s version)[i]? = some f) :
    ∃ around : Option (Routine × Nat), (∀ x ∈ around, (assemble s version)[x.2]? = some x.1) ∧
      routineAround? (assemble s version) f = around.map Prod.fst ∧
        parentIndex? (assemble s version) i f = around.map Prod.snd := by
  refine ⟨latest? (·.1.span.start) ((assemble s version).zipIdx.filter fun x =>
    x.2 ≠ i && x.1.span.encloses f.span), ?_, ?_, rfl⟩
  · intro x hx
    have hmem := (List.mem_filter.1 (latest?_spec hx).1).1
    exact List.mk_mem_zipIdx_iff_getElem?.1 hmem
  · have hfilter : (assemble s version).filter
        (fun other => other.span ≠ f.span && other.span.encloses f.span) =
          ((assemble s version).zipIdx.filter fun x =>
            x.2 ≠ i && x.1.span.encloses f.span).map Prod.fst := by
      conv_lhs => rw [← List.zipIdx_map_fst 0 (assemble s version), List.filter_map]
      refine congrArg _ (List.filter_congr ?_)
      rintro ⟨other, n⟩ hmem
      have hget := List.mk_mem_zipIdx_iff_getElem?.1 hmem
      have hsame : other.span = f.span ↔ n = i := by
        constructor
        · intro h
          exact index_eq_of_start_eq hget hf (congrArg Span.start h)
        · rintro rfl
          rw [hget] at hf
          rw [Option.some.inj hf]
      simp only [Function.comp_apply, ne_eq, hsame]
    rw [routineAround?, hfilter]
    exact latest?_map (fun _ _ => Iff.rfl) _

/-- Routines are told apart by their indices. -/
theorem parentIndex?_eq_iff {i j : Nat} (hf : (assemble s version)[i]? = some f)
    (hg : (assemble s version)[j]? = some g) :
    parentIndex? (assemble s version) i f = parentIndex? (assemble s version) j g ↔
      routineAround? (assemble s version) f = routineAround? (assemble s version) g := by
  obtain ⟨around, haround, hroutine, hindex⟩ := exists_around hf
  obtain ⟨around', haround', hroutine', hindex'⟩ := exists_around hg
  rw [hroutine, hindex, hroutine', hindex']
  cases around with
  | none => cases around' <;> simp
  | some x =>
      cases around' with
      | none => simp
      | some y =>
          have hx := haround x rfl
          have hy := haround' y rfl
          simp only [Option.map_some, Option.some.injEq]
          constructor
          · intro h
            rw [h, hy] at hx
            exact (Option.some.inj hx).symm
          · intro h
            exact index_eq_of_start_eq hx hy (by rw [h])

/-- The class of a routine is the innermost one around it, unless a routine comes between. -/
theorem className_eq (hf : f ∈ assemble s version) :
    f.className = (classAround? s f.span).bind fun block =>
      if (routineAround? (assemble s version) f).any
          fun p => decide (block.span.start < p.span.start)
      then none else some block.name := by
  obtain ⟨d, -, rfl⟩ := mem_assemble.1 hf
  have hany (block : ClassBlock) : (declaredSpans s).any (fun other => other ≠ d.span s &&
      other.encloses (d.span s) && decide (block.span.start < other.start)) =
        (routineAround? (assemble s version) (recordOf s version d)).any fun p =>
          decide (block.span.start < p.span.start) := by
    rw [routineAround?, latest?_any block.span.start, List.any_filter, assemble_eq, List.any_map,
      declaredSpans, List.any_map]
    rfl
  change owningClass? (d.span s) (declaredSpans s) (classBlocks s) = _
  simp only [owningClass?, Option.bind_eq_bind, hany]
  rfl

end

/-! ### Classes around functions -/

/-- Two functions are methods of classes with one name, in any case of the letters. -/
def Routine.ClassesShareName (f g : Routine) : Prop :=
  ∃ c d, f.className = some c ∧ g.className = some d ∧ lowercase c = lowercase d

/--
The function around two others, which are no methods, starts in the class around one of them and
runs past its end.
-/
def RunsPastClass (s : Source) (routines : List Routine) (f g : Routine) : Prop :=
  f.className = none ∧ g.className = none ∧ ∃ p block, routineAround? routines g = some p ∧
    (classAround? s f.span = some block ∨ classAround? s g.span = some block) ∧
      block.span.start < p.span.start ∧ p.span.start < block.span.stop ∧
        block.span.stop < p.span.stop

/-- A class starts on the line of its header. -/
theorem classBlock?_start {s : Source} {n : Nat} {l : Line} {block : ClassBlock}
    (h : classBlock? s n l = some block) : block.span.start.line = n := by
  simp only [classBlock?, Option.bind_eq_bind, Option.bind_eq_some_iff, Option.pure_def] at h
  obtain ⟨first, -, ⟨name, brace⟩, -, h⟩ := h
  cases brace with
  | none =>
      obtain ⟨opening, -, h⟩ := Option.bind_eq_some_iff.1 h
      rw [← Option.some.inj h]
  | some length =>
      obtain ⟨opening, -, h⟩ := Option.bind_eq_some_iff.1 h
      rw [← Option.some.inj h]

/-- No two classes start together. -/
theorem eq_of_class_start_eq {s : Source} {b c : ClassBlock} (hb : b ∈ classBlocks s)
    (hc : c ∈ classBlocks s) (h : b.span.start = c.span.start) : b = c := by
  obtain ⟨⟨l, n⟩, hl, hb⟩ := List.mem_filterMap.1 hb
  obtain ⟨⟨k, m⟩, hk, hc⟩ := List.mem_filterMap.1 hc
  rw [List.mk_mem_zipIdx_iff_getElem?] at hl hk
  have hline : n = m := by rw [← classBlock?_start hb, ← classBlock?_start hc, h]
  rw [← hline, hl] at hk
  rw [← hline, ← Option.some.inj hk, hb] at hc
  exact Option.some.inj hc

theorem mem_of_classAround? {s : Source} {t : Span} {b : ClassBlock}
    (h : classAround? s t = some b) : b ∈ classBlocks s ∧ b.span.encloses t = true :=
  List.mem_filter.1 (latest?_spec h).1

/-- A class around a span is not inside of the innermost one. -/
theorem exists_classAround? {s : Source} {t : Span} {b : ClassBlock} (hb : b ∈ classBlocks s)
    (h : b.span.encloses t = true) :
    ∃ c, classAround? s t = some c ∧ b.span.start ≤ c.span.start := by
  have hmem : b ∈ (classBlocks s).filter (·.span.encloses t) := List.mem_filter.2 ⟨hb, h⟩
  cases hc : classAround? s t with
  | none =>
      rw [latest?_eq_none_iff.1 hc] at hmem
      simp at hmem
  | some c => exact ⟨c, rfl, (latest?_spec hc).2 b hmem⟩

section

variable {s : Source} {version : Int32} {f g p : Routine} {b : ClassBlock}

theorem encloses_of_routineAround? {routines : List Routine}
    (h : routineAround? routines f = some p) : p.span.encloses f.span = true := by
  have hmem := (List.mem_filter.1 (latest?_spec h).1).2
  simp only [Bool.and_eq_true] at hmem
  exact hmem.2

/-- A class around a function and all of the one around it is around the others in that, too. -/
theorem classAround?_le (hf : f ∈ assemble s version) (hs : s.IsPaired)
    (hpf : routineAround? (assemble s version) f = some p)
    (hpg : routineAround? (assemble s version) g = some p) (hclass : f.className = none)
    (hgclass : g.className = none) (hb : classAround? s f.span = some b) :
    RunsPastClass s (assemble s version) f g ∨
      ∃ c, classAround? s g.span = some c ∧ b.span.start ≤ c.span.start := by
  obtain ⟨hmem, hencloses⟩ := mem_of_classAround? hb
  have hpencloses := encloses_of_routineAround? hpf
  have hgencloses := encloses_of_routineAround? hpg
  rw [Span.encloses_iff] at hencloses hpencloses hgencloses
  have hlt : b.span.start < p.span.start := by
    rw [className_eq hf, hb, hpf] at hclass
    by_contra hnot
    simp [hnot] at hclass
  rcases lt_or_ge b.span.stop p.span.stop with hpast | hge
  · have hstart : p.span.start < b.span.stop := by
      have hinside := (standsIn_of_mem_assemble hs hf).start_lt_stop
      exact lt_of_le_of_lt hpencloses.1 (lt_of_lt_of_le hinside hencloses.2)
    exact Or.inl ⟨hclass, hgclass, p, b, hpg, Or.inl hb, hlt, hstart, hpast⟩
  · refine Or.inr (exists_classAround? hmem ?_)
    rw [Span.encloses_iff]
    exact ⟨le_trans (le_of_lt hlt) hgencloses.1, le_trans hgencloses.2 hge⟩

/--
Where neither of two functions with one around them is a method, they are in the same class, or the
one around them runs past the end of a class.
-/
theorem classAround?_eq_of_no_methods (hs : s.IsPaired) (hf : f ∈ assemble s version)
    (hg : g ∈ assemble s version)
    (haround : routineAround? (assemble s version) f = routineAround? (assemble s version) g)
    (hfclass : f.className = none) (hgclass : g.className = none) :
    classAround? s f.span = classAround? s g.span ∨ RunsPastClass s (assemble s version) f g := by
  rw [or_comm, or_iff_not_imp_left]
  intro hpast
  have hpast' : ¬RunsPastClass s (assemble s version) g f := by
    rintro ⟨-, -, p, b, hp, hb, hends⟩
    exact hpast ⟨hfclass, hgclass, p, b, haround ▸ hp, hb.symm, hends⟩
  cases hparent : routineAround? (assemble s version) g with
  | none =>
      -- nothing comes between the two and a class around them, so there is none
      rw [className_eq hf, haround, hparent] at hfclass
      rw [className_eq hg, hparent] at hgclass
      have hnone {t : Span} (h : ((classAround? s t).bind fun block =>
          if (none : Option Routine).any (fun p => decide (block.span.start < p.span.start)) then
            none else some block.name) = none) : classAround? s t = none := by
        cases hc : classAround? s t with
        | none => rfl
        | some b => simp [hc] at h
      rw [hnone hfclass, hnone hgclass]
  | some p =>
      have hpf := haround.trans hparent
      have hbelow {b : ClassBlock} (hb : classAround? s f.span = some b) :=
        (classAround?_le hf hs hpf hparent hfclass hgclass hb).resolve_left hpast
      have hbelow' {b : ClassBlock} (hb : classAround? s g.span = some b) :=
        (classAround?_le hg hs hparent hpf hgclass hfclass hb).resolve_left hpast'
      cases hb : classAround? s f.span with
      | none =>
          cases hc : classAround? s g.span with
          | none => rfl
          | some c =>
              obtain ⟨b, hb', -⟩ := hbelow' hc
              simp [hb] at hb'
      | some b =>
          obtain ⟨c, hc, hle⟩ := hbelow hb
          obtain ⟨b', hb', hge⟩ := hbelow' hc
          obtain rfl := Option.some.inj (hb.symm.trans hb')
          rw [hc, eq_of_class_start_eq (mem_of_classAround? hb).1 (mem_of_classAround? hc).1
            (le_antisymm hle hge)]

/-- Two functions with one around them have one class, in any case of the letters. -/
theorem class_eq_iff (hs : s.IsPaired) (hf : f ∈ assemble s version)
    (hg : g ∈ assemble s version)
    (haround : routineAround? (assemble s version) f = routineAround? (assemble s version) g) :
    f.className.map lowercase = g.className.map lowercase ↔
      classAround? s f.span = classAround? s g.span ∨ f.ClassesShareName g ∨
        RunsPastClass s (assemble s version) f g := by
  constructor
  · intro h
    cases hfclass : f.className with
    | none =>
        cases hgclass : g.className with
        | none =>
            exact (classAround?_eq_of_no_methods hs hf hg haround hfclass hgclass).imp id Or.inr
        | some d => simp [hfclass, hgclass] at h
    | some c =>
        cases hgclass : g.className with
        | none => simp [hfclass, hgclass] at h
        | some d =>
            rw [hfclass, hgclass, Option.map_some, Option.map_some, Option.some.injEq] at h
            exact Or.inr (Or.inl ⟨c, d, hfclass, hgclass, h⟩)
  · rintro (h | ⟨c, d, hc, hd, h⟩ | ⟨hfclass, hgclass, -⟩)
    · rw [className_eq hf, className_eq hg, h, haround]
    · rw [hc, hd, Option.map_some, Option.map_some, h]
    · rw [hfclass, hgclass]

end

/-! ### Reports -/

theorem rule_of_mem_repeatedParameters {file : String} {r : Routine} {d : Finding}
    (h : d ∈ repeatedParameters file r) : d.rule = .duplicateParameter := by
  obtain ⟨name, -, rfl⟩ := List.mem_map.1 h
  rfl

theorem rule_of_mem_unreadSignature {file : String} {r : Routine} {d : Finding}
    (h : d ∈ unreadSignature file r) : d.rule = .malformedSignature := by
  unfold unreadSignature at h
  split at h
  · rw [List.mem_singleton.1 h]
    rfl
  · simp at h

/-- Of all findings, those of functions that are declared again come from one rule. -/
theorem mem_check_duplicateFunction {file : String} {routines : List Routine} {d : Finding} :
    d ∈ check file routines ∧ d.rule = .duplicateFunction ↔ d ∈ repeatedRoutines file routines := by
  rw [check, List.mem_mergeSort, List.mem_append]
  constructor
  · rintro ⟨h | h, hrule⟩
    · exact h
    · obtain ⟨r, -, h⟩ := List.mem_flatMap.1 h
      rcases List.mem_append.1 h with h | h
      · rw [rule_of_mem_repeatedParameters h] at hrule
        exact Rule.noConfusion hrule
      · rw [rule_of_mem_unreadSignature h] at hrule
        exact Rule.noConfusion hrule
  · intro h
    refine ⟨Or.inl h, ?_⟩
    obtain ⟨i, j, f, g, -, -, -, -, -, rfl⟩ := mem_repeatedRoutines_iff.1 h
    rfl

/-- A function is reported where it starts. -/
def IsReportedAgain (findings : List Finding) (g : Routine) : Prop :=
  ∃ d ∈ findings, d.rule = .duplicateFunction ∧ d.line = g.span.start.line + 1 ∧
    d.column = g.span.start.column + 1

/-- A function is reported if an earlier one has its key. -/
theorem isReportedAgain_iff {s : Source} {version : Int32} {file : String} {g : Routine} {j : Nat}
    (hg : (assemble s version)[j]? = some g) :
    IsReportedAgain (check file (assemble s version)) g ↔
      ∃ i f, i < j ∧ (assemble s version)[i]? = some f ∧
        clashKey (assemble s version) i f = clashKey (assemble s version) j g := by
  constructor
  · rintro ⟨d, hd, hrule, hline, hcolumn⟩
    obtain ⟨i, k, f, r, hlt, hf, hr, hkey, -, rfl⟩ :=
      mem_repeatedRoutines_iff.1 (mem_check_duplicateFunction.1 ⟨hd, hrule⟩)
    have hstart : r.span.start = g.span.start := by
      have hline' : r.span.start.line = g.span.start.line := Nat.succ.inj hline
      have hcolumn' : r.span.start.column = g.span.start.column := Nat.succ.inj hcolumn
      exact congrArg₂ Position.mk hline' hcolumn'
    obtain rfl := index_eq_of_start_eq hr hg hstart
    obtain rfl := Option.some.inj (hr.symm.trans hg)
    exact ⟨i, f, hlt, hf, hkey⟩
  · rintro ⟨i, f, hlt, hf, hkey⟩
    -- the report names the first of the routines with the key
    classical
    have hexists : ∃ i f, (assemble s version)[i]? = some f ∧
        clashKey (assemble s version) i f = clashKey (assemble s version) j g := ⟨i, f, hf, hkey⟩
    obtain ⟨first, hfirst, hfirstKey⟩ := Nat.find_spec hexists
    have hmem : g.declaredAgain file first ∈ repeatedRoutines file (assemble s version) := by
      refine mem_repeatedRoutines_iff.2 ⟨_, j, first, g, ?_, hfirst, hg, hfirstKey, ?_, rfl⟩
      · exact Nat.lt_of_le_of_lt (Nat.find_min' hexists ⟨f, hf, hkey⟩) hlt
      · intro k r hk hr heq
        exact Nat.find_min hexists hk ⟨r, hr, heq⟩
    obtain ⟨hcheck, hrule⟩ := mem_check_duplicateFunction.2 hmem
    exact ⟨_, hcheck, hrule, rfl, rfl⟩

/--
A function is reported as declared again exactly if a function that starts before it has its name,
in any case of the letters, and the same innermost function around it, and either the two are in one
innermost class or in none, or they are methods of classes with one name, or neither of them is a
method and the function around them runs past the end of a class around one of them.
-/
theorem reported_again_iff (text : List Char) (version : Int32) (file : String) :
    ∀ g ∈ routinesOf text version,
      IsReportedAgain (check file (routinesOf text version)) g ↔
        ∃ f ∈ routinesOf text version, f.span.start < g.span.start ∧
          lowercase f.name = lowercase g.name ∧
          routineAround? (routinesOf text version) f = routineAround? (routinesOf text version) g ∧
            (classAround? (Source.scan text) f.span = classAround? (Source.scan text) g.span ∨
              f.ClassesShareName g ∨
                RunsPastClass (Source.scan text) (routinesOf text version) f g) := by
  intro g hg
  have hs := Source.isPaired_scan text
  obtain ⟨j, hj⟩ := List.mem_iff_getElem?.1 hg
  unfold routinesOf at hj hg ⊢
  rw [isReportedAgain_iff hj]
  constructor
  · rintro ⟨i, f, hlt, hi, hkey⟩
    have hf := List.mem_of_getElem? hi
    simp only [clashKey, ClashKey.mk.injEq, parentIndex?_eq_iff hi hj] at hkey
    obtain ⟨hclass, haround, hname⟩ := hkey
    exact ⟨f, hf, (start_lt_iff hi hj).2 hlt, hname, haround,
      (class_eq_iff hs hf hg haround).1 hclass⟩
  · rintro ⟨f, hf, hstart, hname, haround, hclass⟩
    obtain ⟨i, hi⟩ := List.mem_iff_getElem?.1 hf
    refine ⟨i, f, (start_lt_iff hi hj).1 hstart, hi, ?_⟩
    simp only [clashKey, ClashKey.mk.injEq, parentIndex?_eq_iff hi hj]
    exact ⟨(class_eq_iff hs hf hg haround).2 hclass, haround, hname⟩

/-- Two classes, each with an inner one of the same name that has the same method. -/
def twinClasses : List Char :=
  ("class A \x7b\n  class Item \x7b\n    Run() \x7b\n    \x7d\n  \x7d\n\x7d\n" ++
    "class B \x7b\n  class Item \x7b\n    Run() \x7b\n    \x7d\n  \x7d\n\x7d").toList

theorem twinClasses_records :
    (routinesOf twinClasses 0).map (fun r => (r.name, r.className, r.span)) =
      [("Run", some "Item", ⟨⟨2, 4⟩, ⟨3, 5⟩⟩), ("Run", some "Item", ⟨⟨8, 4⟩, ⟨9, 5⟩⟩)] := by
  rewrite [routinesOf, assemble_eq]
  decide +kernel

/-- The methods of different classes are reported, since these have one name. -/
theorem reported_again_iff_twinClasses :
    ∃ f ∈ routinesOf twinClasses 0, ∃ g ∈ routinesOf twinClasses 0,
      classAround? (Source.scan twinClasses) f.span = some ⟨"Item", ⟨1, 2⟩, ⟨4, 3⟩⟩ ∧
      classAround? (Source.scan twinClasses) g.span = some ⟨"Item", ⟨7, 2⟩, ⟨10, 3⟩⟩ ∧
        IsReportedAgain (check "twins" (routinesOf twinClasses 0)) g ∧
          ¬IsReportedAgain (check "twins" (routinesOf twinClasses 0)) f := by
  obtain ⟨f, rest, hrecords, hf, hrest⟩ := List.map_eq_cons_iff.1 twinClasses_records
  obtain ⟨g, _, rfl, hg, hnil⟩ := List.map_eq_cons_iff.1 hrest
  obtain rfl := List.map_eq_nil_iff.1 hnil
  simp only [Prod.mk.injEq] at hf hg
  have hfmem : f ∈ routinesOf twinClasses 0 := by simp [hrecords]
  have hgmem : g ∈ routinesOf twinClasses 0 := by simp [hrecords]
  refine ⟨f, hfmem, g, hgmem, ?_, ?_, ?_, ?_⟩
  · rw [hf.2.2]
    decide +kernel
  · rw [hg.2.2]
    decide +kernel
  · refine (reported_again_iff twinClasses 0 "twins" g hgmem).2 ⟨f, hfmem, ?_, ?_, ?_, ?_⟩
    · rw [hf.2.2, hg.2.2]
      decide
    · rw [hf.1, hg.1]
    · rw [routineAround?, routineAround?, hrecords]
      simp [hf.2.2, hg.2.2, Span.encloses, Position.le_iff]
    · exact Or.inr (Or.inl ⟨"Item", "Item", hf.2.1, hg.2.1, rfl⟩)
  · rw [reported_again_iff twinClasses 0 "twins" f hfmem]
    rintro ⟨r, hr, hstart, -⟩
    rw [hrecords] at hr
    simp only [List.mem_cons, List.not_mem_nil, or_false] at hr
    rcases hr with rfl | rfl
    · exact absurd hstart (lt_irrefl _)
    · rw [hf.2.2, hg.2.2] at hstart
      exact absurd hstart (by decide)

end ScriptOutline
