/-
**Which mention of a name is reported.**

A body mentions names in declaration lines, as the names of a loop or of a caught error, and by
assignments.  Of all mentions of a name, in any case of the letters, the one of the highest rank is
reported: declarations come before all else, then earlier lines before later ones, on one line the
names of a loop before a caught error and that before assignments, and then what stands further to
the left.  A parameter comes before all of them.

Main definitions:

* `Variable.IsFirstOf` — the first variable of its name in a list;
* `Way`, `Occurrence` — how a name comes into a body, and where;
* `Occurrence.IsOf` — the lines of a body bring a name in;
* `Occurrence.Precedes` — the order of ranks;
* `Occurrence.IsFirst` — an occurrence comes before every other one of its name;
* `Variables.inScope` — the variables of one scope;
* `mixedBody` — a body that brings in one name in several ways.

Main results:

* `mem_firstMentions_iff` — what is kept of a list of variables;
* `occurrences_pairwise` — mentions are gone through in the order of their ranks;
* `variables_unique_and_ranked` — **names are reported once, at their first mention**.
-/

import Mathlib.Data.List.Nodup
import ScriptOutline.Proofs.InnermostVariables
import ScriptOutline.Proofs.MentionOrder

set_option relaxedAutoImplicit false
set_option autoImplicit false

namespace ScriptOutline

/-! ### What is kept -/

/-- A variable of a list, whose name no variable before it has. -/
def Variable.IsFirstOf (v : Variable) (vars : List Variable) : Prop :=
  ∃ before after, vars = before ++ v :: after ∧
    ∀ w ∈ before, lowercase w.name ≠ lowercase v.name

/-- The first of its name is the head of a list, or the first in the rest and not named alike. -/
theorem Variable.isFirstOf_cons_iff {v w : Variable} {rest : List Variable} :
    v.IsFirstOf (w :: rest) ↔ v = w ∨ lowercase v.name ≠ lowercase w.name ∧ v.IsFirstOf rest := by
  constructor
  · rintro ⟨before, after, heq, hbefore⟩
    cases before with
    | nil => exact Or.inl (List.cons.inj heq).1.symm
    | cons u before =>
        obtain ⟨rfl, rfl⟩ := List.cons.inj heq
        exact Or.inr ⟨(hbefore _ List.mem_cons_self).symm, before, after, rfl,
          fun u hu => hbefore u (List.mem_cons_of_mem _ hu)⟩
  · rintro (rfl | ⟨hne, before, after, rfl, hbefore⟩)
    · exact ⟨[], rest, rfl, by simp⟩
    · refine ⟨w :: before, after, rfl, ?_⟩
      intro u hu
      rcases List.mem_cons.1 hu with rfl | hu
      · exact hne.symm
      · exact hbefore u hu

/-- A variable is kept if its name is not taken, and no variable before it has the name. -/
theorem mem_firstMentions_iff {taken : List String} {vars : List Variable} {v : Variable} :
    v ∈ firstMentions taken vars ↔ lowercase v.name ∉ taken ∧ v.IsFirstOf vars := by
  induction vars generalizing taken with
  | nil => simp [firstMentions, Variable.IsFirstOf]
  | cons w rest ih =>
      rw [Variable.isFirstOf_cons_iff]
      simp only [firstMentions]
      by_cases hw : lowercase w.name ∈ taken
      · -- the head is passed over, and a name that is not taken is not the one of the head
        simp only [List.contains_iff_mem, hw, if_true]
        rw [ih]
        refine and_congr_right fun hv => ?_
        constructor
        · intro hrest
          refine Or.inr ⟨?_, hrest⟩
          intro heq
          exact hv (heq ▸ hw)
        · rintro (rfl | ⟨-, hrest⟩)
          · exact absurd hw hv
          · exact hrest
      · simp only [List.contains_iff_mem, hw, if_false]
        rw [List.mem_cons, ih, List.mem_cons, not_or]
        constructor
        · rintro (rfl | ⟨⟨hne, hv⟩, hrest⟩)
          · exact ⟨hw, Or.inl rfl⟩
          · exact ⟨hv, Or.inr ⟨hne, hrest⟩⟩
        · rintro ⟨hv, rfl | ⟨hne, hrest⟩⟩
          · exact Or.inl rfl
          · exact Or.inr ⟨⟨hne, hv⟩, hrest⟩

/-- No two variables that are kept have one name. -/
theorem firstMentions_nodup (taken : List String) (vars : List Variable) :
    ((firstMentions taken vars).map fun v => lowercase v.name).Nodup := by
  induction vars generalizing taken with
  | nil => exact List.nodup_nil
  | cons w rest ih =>
      simp only [firstMentions]
      split
      · exact ih taken
      · rw [List.map_cons, List.nodup_cons]
        refine ⟨?_, ih _⟩
        intro hmem
        obtain ⟨v, hv, heq⟩ := List.mem_map.1 hmem
        exact (mem_firstMentions_iff.1 hv).1 (heq ▸ List.mem_cons_self)

/-! ### Scopes -/

/-- The variables of one scope. -/
def Variables.inScope (vars : Variables) : Scope → List Variable
  | .static => vars.statics
  | .local => vars.locals
  | .global => vars.globals

theorem Variables.inScope_ofList (vars : List Variable) (scope : Scope) :
    (ofList vars).inScope scope = vars.filter (·.scope = scope) := by
  cases scope <;> rfl

theorem Variables.mem_toList_ofList {vars : List Variable} {v : Variable} :
    v ∈ (ofList vars).toList ↔ v ∈ vars := by
  constructor
  · exact mem_of_mem_toList_ofList
  · intro h
    simp only [ofList, toList, List.mem_append, List.mem_filter, decide_eq_true_eq]
    cases hscope : v.scope with
    | static => exact Or.inl (Or.inl ⟨h, rfl⟩)
    | «local» => exact Or.inr ⟨h, rfl⟩
    | global => exact Or.inl (Or.inr ⟨h, rfl⟩)

/-- Sorting variables by scope only changes their order. -/
theorem Variables.toList_ofList_perm {vars : List Variable} (h : vars.Nodup) :
    (ofList vars).toList.Perm vars := by
  refine (List.perm_ext_iff_of_nodup ?_ h).2 fun v => mem_toList_ofList
  have hdisjoint {a b : Scope} (hne : a ≠ b) :
      ∀ v ∈ vars.filter (·.scope = a), ∀ w ∈ vars.filter (·.scope = b), v ≠ w := by
    rintro v hv w hw rfl
    simp only [List.mem_filter, decide_eq_true_eq] at hv hw
    exact hne (hv.2.symm.trans hw.2)
  simp only [ofList, toList]
  rw [List.nodup_append, List.nodup_append]
  refine ⟨⟨h.filter _, h.filter _, hdisjoint (by decide)⟩, h.filter _, ?_⟩
  intro v hv
  rcases List.mem_append.1 hv with hv | hv
  · exact hdisjoint (by decide) v hv
  · exact hdisjoint (by decide) v hv

/-! ### Occurrences -/

/-- How a name comes into a body. -/
inductive Way where
  | declared (scope : Scope)
  | loop
  | caught
  | assigned
  deriving DecidableEq, Repr

namespace Way

/-- The scope of a variable that comes in so. -/
def scope : Way → Scope
  | declared scope => scope
  | loop | caught | assigned => .local

/-- Whether a name is declared. -/
def isDeclaration : Way → Bool
  | declared _ => true
  | loop | caught | assigned => false

/-- In which place a way comes on its line. -/
def place : Way → Nat
  | declared _ => 0
  | loop => 1
  | caught => 2
  | assigned => 3

end Way

/-- A name that comes into a body on one of its lines. -/
structure Occurrence where
  way : Way
  line : BodyLine
  mention : Mention
  deriving DecidableEq, Repr

namespace Occurrence

/-- The variable that is reported for an occurrence. -/
def toVariable (o : Occurrence) : Variable :=
  o.line.toVariable o.way.scope o.mention

/-- The name of an occurrence, in small letters. -/
def key (o : Occurrence) : String :=
  lowercase o.toVariable.name

/-- The lines of a body bring a name in.  A declaration line does so in no other way. -/
def IsOf (o : Occurrence) (lines : List BodyLine) : Prop :=
  o.line ∈ lines ∧
    match o.way with
    | .declared scope => ∃ mentions, declaredOn? o.line.text = some (scope, mentions) ∧
        o.mention ∈ mentions
    | .loop => declaredOn? o.line.text = none ∧ o.mention ∈ loopNames o.line.text
    | .caught => declaredOn? o.line.text = none ∧ o.mention ∈ caughtNames o.line.text
    | .assigned => declaredOn? o.line.text = none ∧ o.mention ∈ assignedNames o.line.text

/--
One occurrence comes before another: declarations before all else, then by line, on one line by the
way, and then by column.
-/
def Precedes (o p : Occurrence) : Prop :=
  o.way.isDeclaration = true ∧ p.way.isDeclaration = false ∨
    o.way.isDeclaration = p.way.isDeclaration ∧
      (o.line.number < p.line.number ∨ o.line.number = p.line.number ∧
        (o.way.place < p.way.place ∨ o.way.place = p.way.place ∧
          o.mention.column < p.mention.column))

theorem Precedes.asymm {o p : Occurrence} (h : o.Precedes p) : ¬p.Precedes o := by
  rintro (⟨hp, ho⟩ | ⟨heq, h'⟩)
  · rcases h with ⟨ho', -⟩ | ⟨heq, -⟩
    · simp [ho] at ho'
    · simp [ho, hp] at heq
  · rcases h with ⟨ho, hp⟩ | ⟨-, h⟩
    · simp [ho, hp] at heq
    · omega

theorem not_precedes_self (o : Occurrence) : ¬o.Precedes o :=
  fun h => h.asymm h

end Occurrence

namespace BodyLine

/-- The names that a declaration line brings in, from left to right. -/
def declaredOccurrences (l : BodyLine) : List Occurrence :=
  match declaredOn? l.text with
  | some (scope, mentions) => mentions.map (Occurrence.mk (.declared scope) l)
  | none => []

/-- The names that any other line brings in, way by way. -/
def impliedOccurrences (l : BodyLine) : List Occurrence :=
  match declaredOn? l.text with
  | some _ => []
  | none => (loopNames l.text).map (Occurrence.mk .loop l) ++
      (caughtNames l.text).map (Occurrence.mk .caught l) ++
        (assignedNames l.text).map (Occurrence.mk .assigned l)

theorem declaredOccurrences_toVariable (l : BodyLine) :
    l.declaredOccurrences.map Occurrence.toVariable = l.declared := by
  unfold declaredOccurrences declared
  cases declaredOn? l.text with
  | none => rfl
  | some found =>
      simp only [List.map_map]
      rfl

theorem impliedOccurrences_toVariable (l : BodyLine) :
    l.impliedOccurrences.map Occurrence.toVariable = l.implied := by
  unfold impliedOccurrences implied
  cases declaredOn? l.text with
  | some found => rfl
  | none =>
      simp only [impliedOn, List.map_append, List.map_map]
      rfl

/-- An occurrence on a line is a declaration, or comes in one of the other ways. -/
theorem mem_occurrences_iff {l : BodyLine} {o : Occurrence} :
    o ∈ l.declaredOccurrences ∨ o ∈ l.impliedOccurrences ↔ o.IsOf [l] := by
  obtain ⟨way, line, mention⟩ := o
  unfold declaredOccurrences impliedOccurrences Occurrence.IsOf
  simp only [List.mem_singleton]
  by_cases hline : line = l
  · subst hline
    cases hdeclared : declaredOn? line.text with
    | some found =>
        obtain ⟨scope, mentions⟩ := found
        cases way <;> simp [eq_comm, and_comm]
    | none => cases way <;> simp
  · cases declaredOn? l.text <;> simp [hline, Ne.symm hline]

/-- What a line declares stands on it. -/
theorem of_mem_declaredOccurrences {l : BodyLine} {o : Occurrence}
    (h : o ∈ l.declaredOccurrences) : o.line = l ∧ o.way.isDeclaration = true := by
  unfold declaredOccurrences at h
  split at h
  · obtain ⟨m, -, rfl⟩ := List.mem_map.1 h
    exact ⟨rfl, rfl⟩
  · simp at h

/-- What comes in without a declaration stands on its line. -/
theorem of_mem_impliedOccurrences {l : BodyLine} {o : Occurrence}
    (h : o ∈ l.impliedOccurrences) : o.line = l ∧ o.way.isDeclaration = false := by
  unfold impliedOccurrences at h
  split at h
  · simp at h
  · simp only [List.mem_append, List.mem_map] at h
    rcases h with (⟨m, -, rfl⟩ | ⟨m, -, rfl⟩) | ⟨m, -, rfl⟩
    · exact ⟨rfl, rfl⟩
    · exact ⟨rfl, rfl⟩
    · exact ⟨rfl, rfl⟩

/-- On one line, and coming in in one way, a name further to the left comes first. -/
theorem pairwise_precedes_map {way : Way} {l : BodyLine} {mentions : List Mention}
    (h : mentions.Pairwise fun a b => a.column < b.column) :
    (mentions.map (Occurrence.mk way l)).Pairwise Occurrence.Precedes := by
  rw [List.pairwise_map]
  refine h.imp ?_
  intro a b hlt
  exact Or.inr ⟨rfl, Or.inr ⟨rfl, Or.inr ⟨rfl, hlt⟩⟩⟩

theorem declaredOccurrences_pairwise (l : BodyLine) :
    l.declaredOccurrences.Pairwise Occurrence.Precedes := by
  unfold declaredOccurrences
  split
  · next hdeclared => exact pairwise_precedes_map (declaredOn?_pairwise hdeclared)
  · exact List.Pairwise.nil

theorem impliedOccurrences_pairwise (l : BodyLine) :
    l.impliedOccurrences.Pairwise Occurrence.Precedes := by
  unfold impliedOccurrences
  split
  · exact List.Pairwise.nil
  · have hplace (a b : Way) (hdecl : a.isDeclaration = b.isDeclaration)
        (hlt : a.place < b.place) {ms ns : List Mention} :
        ∀ o ∈ ms.map (Occurrence.mk a l), ∀ p ∈ ns.map (Occurrence.mk b l), o.Precedes p := by
      intro o ho p hp
      obtain ⟨m, -, rfl⟩ := List.mem_map.1 ho
      obtain ⟨n, -, rfl⟩ := List.mem_map.1 hp
      exact Or.inr ⟨hdecl, Or.inr ⟨rfl, Or.inl hlt⟩⟩
    rw [List.pairwise_append, List.pairwise_append]
    refine ⟨⟨pairwise_precedes_map (loopNames_pairwise _),
      pairwise_precedes_map (caughtNames_pairwise _), hplace .loop .caught rfl (by decide)⟩,
      pairwise_precedes_map (assignedNames_pairwise _), ?_⟩
    intro o ho
    rcases List.mem_append.1 ho with ho | ho
    · exact hplace .loop .assigned rfl (by decide) o ho
    · exact hplace .caught .assigned rfl (by decide) o ho

end BodyLine

/-- The names that lines bring in: those of declaration lines, and then the others. -/
def occurrences (lines : List BodyLine) : List Occurrence :=
  lines.flatMap BodyLine.declaredOccurrences ++ lines.flatMap BodyLine.impliedOccurrences

theorem occurrences_toVariable (lines : List BodyLine) :
    (occurrences lines).map Occurrence.toVariable = mentionedVariables lines := by
  simp only [occurrences, mentionedVariables, List.map_append, List.map_flatMap,
    BodyLine.declaredOccurrences_toVariable, BodyLine.impliedOccurrences_toVariable]

theorem mem_occurrences {lines : List BodyLine} {o : Occurrence} :
    o ∈ occurrences lines ↔ o.IsOf lines := by
  rw [occurrences, List.mem_append, List.mem_flatMap, List.mem_flatMap]
  constructor
  · rintro (⟨l, hl, ho⟩ | ⟨l, hl, ho⟩)
    · obtain ⟨hline, hway⟩ := BodyLine.mem_occurrences_iff.1 (Or.inl ho)
      exact ⟨List.mem_singleton.1 hline ▸ hl, hway⟩
    · obtain ⟨hline, hway⟩ := BodyLine.mem_occurrences_iff.1 (Or.inr ho)
      exact ⟨List.mem_singleton.1 hline ▸ hl, hway⟩
  · rintro ⟨hline, hway⟩
    rcases BodyLine.mem_occurrences_iff.2 ⟨List.mem_singleton.2 rfl, hway⟩ with ho | ho
    · exact Or.inl ⟨_, hline, ho⟩
    · exact Or.inr ⟨_, hline, ho⟩

/-- The lines of a body are numbered upwards. -/
theorem bodyLines_pairwise (s : Source) (body : Span) (excluded : List Span) :
    (bodyLines s body excluded).Pairwise fun a b => a.number < b.number := by
  have hlines : s.lines.zipIdx.Pairwise fun a b => a.2 < b.2 := by
    have hnumbers : (s.lines.zipIdx.map Prod.snd).Pairwise (· < ·) := by
      rw [List.zipIdx_map_snd]
      exact List.pairwise_lt_range'
    exact List.pairwise_map.1 hnumbers
  refine List.Pairwise.filter _ ?_
  rw [List.pairwise_map]
  exact (hlines.drop).take

/-- The names that lines bring in are gone through in the order of their ranks. -/
theorem occurrences_pairwise {lines : List BodyLine}
    (hlines : lines.Pairwise fun a b => a.number < b.number) :
    (occurrences lines).Pairwise Occurrence.Precedes := by
  have hbelow {o p : Occurrence} (hway : o.way.isDeclaration = p.way.isDeclaration)
      (hlt : o.line.number < p.line.number) : o.Precedes p :=
    Or.inr ⟨hway, Or.inl hlt⟩
  rw [occurrences, List.pairwise_append, List.pairwise_flatMap, List.pairwise_flatMap]
  refine ⟨⟨fun l _ => l.declaredOccurrences_pairwise, hlines.imp ?_⟩,
    ⟨fun l _ => l.impliedOccurrences_pairwise, hlines.imp ?_⟩, ?_⟩
  · intro a b hlt o ho p hp
    obtain ⟨rfl, howay⟩ := BodyLine.of_mem_declaredOccurrences ho
    obtain ⟨rfl, hpway⟩ := BodyLine.of_mem_declaredOccurrences hp
    exact hbelow (howay.trans hpway.symm) hlt
  · intro a b hlt o ho p hp
    obtain ⟨rfl, howay⟩ := BodyLine.of_mem_impliedOccurrences ho
    obtain ⟨rfl, hpway⟩ := BodyLine.of_mem_impliedOccurrences hp
    exact hbelow (howay.trans hpway.symm) hlt
  · intro o ho p hp
    obtain ⟨l, -, ho⟩ := List.mem_flatMap.1 ho
    obtain ⟨l', -, hp⟩ := List.mem_flatMap.1 hp
    exact Or.inl ⟨(BodyLine.of_mem_declaredOccurrences ho).2,
      (BodyLine.of_mem_impliedOccurrences hp).2⟩

/-! ### The first mention -/

/-- An occurrence comes before every other one of its name. -/
def Occurrence.IsFirst (o : Occurrence) (lines : List BodyLine) : Prop :=
  o.IsOf lines ∧ ∀ p : Occurrence, p.IsOf lines → p.key = o.key → p = o ∨ o.Precedes p

/-- Among occurrences in the order of their ranks, the first of a name comes before the others. -/
theorem isFirstOf_iff_of_pairwise {os : List Occurrence}
    (hos : os.Pairwise Occurrence.Precedes) {v : Variable} :
    v.IsFirstOf (os.map Occurrence.toVariable) ↔
      ∃ o ∈ os, o.toVariable = v ∧ ∀ p ∈ os, p.key = o.key → p = o ∨ o.Precedes p := by
  constructor
  · rintro ⟨before, after, heq, hbefore⟩
    obtain ⟨left, right, rfl, rfl, hright⟩ := List.map_eq_append_iff.1 heq
    obtain ⟨o, right, rfl, rfl, rfl⟩ := List.map_eq_cons_iff.1 hright
    refine ⟨o, by simp, rfl, ?_⟩
    intro p hp hkey
    rcases List.mem_append.1 hp with hp | hp
    · exact absurd hkey (hbefore _ (List.mem_map_of_mem hp))
    · rcases List.mem_cons.1 hp with rfl | hp
      · exact Or.inl rfl
      · have hrest := (List.pairwise_append.1 hos).2.1
        exact Or.inr ((List.pairwise_cons.1 hrest).1 p hp)
  · rintro ⟨o, ho, rfl, hfirst⟩
    obtain ⟨left, right, rfl⟩ := List.append_of_mem ho
    refine ⟨left.map Occurrence.toVariable, right.map Occurrence.toVariable, by simp, ?_⟩
    intro w hw hname
    obtain ⟨p, hp, rfl⟩ := List.mem_map.1 hw
    have hprecedes : p.Precedes o :=
      (List.pairwise_append.1 hos).2.2 p hp o List.mem_cons_self
    rcases hfirst p (List.mem_append_left _ hp) hname with rfl | hafter
    · exact p.not_precedes_self hprecedes
    · exact hafter.asymm hprecedes

/--
**Names are reported once, at their first mention.**  No two variables of a body have one name in
small letters, each is in the list of its scope, and the variables are the first mentions of the
names that no parameter has.
-/
theorem variables_unique_and_ranked (s : Source) (body : Span) (excluded : List Span)
    (parameters : List Parameter) :
    let found := findVariables s body excluded parameters
    (found.toList.map fun v => lowercase v.name).Nodup ∧
      (∀ v scope, v ∈ found.inScope scope ↔ v ∈ found.toList ∧ v.scope = scope) ∧
      ∀ v, v ∈ found.toList ↔
        (∀ p ∈ parameters, lowercase p.name ≠ lowercase v.name) ∧
          ∃ o : Occurrence, o.IsFirst (bodyLines s body excluded) ∧ o.toVariable = v := by
  have hunique := firstMentions_nodup (parameters.map fun p => lowercase p.name)
    (mentionedVariables (bodyLines s body excluded))
  refine ⟨?_, ?_, ?_⟩
  · exact ((Variables.toList_ofList_perm (List.Nodup.of_map _ hunique)).map _).nodup_iff.2 hunique
  · intro v scope
    rw [findVariables, Variables.inScope_ofList, Variables.mem_toList_ofList, List.mem_filter,
      decide_eq_true_iff]
  · intro v
    rw [findVariables, Variables.mem_toList_ofList, mem_firstMentions_iff,
      ← occurrences_toVariable,
      isFirstOf_iff_of_pairwise (occurrences_pairwise (bodyLines_pairwise s body excluded))]
    simp only [mem_occurrences, List.mem_map, not_exists, not_and]
    refine and_congr_right fun _ => exists_congr fun o => ?_
    constructor
    · rintro ⟨ho, hv, hfirst⟩
      exact ⟨⟨ho, hfirst⟩, hv⟩
    · rintro ⟨⟨ho, hfirst⟩, hv⟩
      exact ⟨ho, hv, hfirst⟩

/-- A body with a name that is assigned and declared, one that comes twice, and a parameter. -/
def mixedBody : Source :=
  Source.scan "total := 1\nstatic Total := sum := 0\nfor K, v in list\nk := 1\narg := 2".toList

/-- The parameter of that body. -/
def mixedParameter : Parameter :=
  ⟨"Arg", false, false, none, none, false, 0⟩

/-- The declaration counts for the first name, and the loop for the second. -/
theorem variables_unique_and_ranked_mixedBody :
    (findVariables mixedBody ⟨⟨0, 0⟩, ⟨4, 8⟩⟩ [] [mixedParameter]).toList.map
        (fun v => (v.name, v.scope, v.position)) =
      [("Total", .static, ⟨1, 7⟩), ("sum", .static, ⟨1, 16⟩), ("K", .local, ⟨2, 4⟩),
        ("v", .local, ⟨2, 7⟩)] ∧
      ∃ o : Occurrence, o.IsFirst (bodyLines mixedBody ⟨⟨0, 0⟩, ⟨4, 8⟩⟩ []) ∧
        o.toVariable = ⟨"K", .local, true, ⟨2, 4⟩, none⟩ := by
  refine ⟨by decide +kernel, ?_⟩
  have hranked := variables_unique_and_ranked mixedBody ⟨⟨0, 0⟩, ⟨4, 8⟩⟩ [] [mixedParameter]
  exact ((hranked.2.2 ⟨"K", .local, true, ⟨2, 4⟩, none⟩).1 (by decide +kernel)).2

end ScriptOutline
