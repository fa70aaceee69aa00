/-
**The order of the records.**

Declarations start on lines that increase, so that sorting the records changes nothing and no two of
them start together.  The innermost record at a position is therefore the one that starts last, and
there is only one such.

Main results:

* `assemble_eq` — the records are the declarations, in their order;
* `assemble_pairwise`, `eq_of_start_eq` — the starts of records increase, and tell them apart;
* `latest?_spec` — what starts last among the members of a list;
* `routineAt?_eq_some_iff` — the innermost record at a position.
-/

import ScriptOutline.Proofs.DeclarationParts
import ScriptOutline.Routine.Assembly

set_option relaxedAutoImplicit false
set_option autoImplicit false

namespace ScriptOutline

/-! ### Sorting -/

/-- The spans of all declarations of a text. -/
def declaredSpans (s : Source) : List Span :=
  (declarations s).map fun d => d.span s

/-- The record of a declaration among those of its text. -/
def recordOf (s : Source) (version : Int32) (d : Declaration) : Routine :=
  routineOf s version (declaredSpans s) (classBlocks s) d

@[simp] theorem recordOf_span (s : Source) (version : Int32) (d : Declaration) :
    (recordOf s version d).span = d.span s := rfl

theorem start_lt_of_headerLine_lt {s : Source} {d e : Declaration} (hd : d.Placed s)
    (h : d.headerLine < e.start.line) : d.start < e.start := by
  apply Position.lt_of_line_lt
  have hle := Position.line_le_of_le (le_of_lt hd.start_lt)
  rw [hd.bodyStart_line] at hle
  omega

/-- The starts of declarations increase. -/
theorem declarations_starts (s : Source) :
    (declarations s).Pairwise fun d e => d.start < e.start :=
  (declarations_pairwise s).imp_of_mem fun hd _ h =>
    start_lt_of_headerLine_lt (declarations_placed hd) h

/-- The records are the declarations, in their order. -/
theorem assemble_eq (s : Source) (version : Int32) :
    assemble s version = (declarations s).map (recordOf s version) := by
  unfold assemble
  apply List.mergeSort_of_pairwise
  rw [List.pairwise_map]
  refine (declarations_starts s).imp ?_
  intro d e h
  exact decide_eq_true (le_of_lt h)

theorem mem_assemble {s : Source} {version : Int32} {r : Routine} :
    r ∈ assemble s version ↔ ∃ d ∈ declarations s, recordOf s version d = r := by
  rw [assemble_eq, List.mem_map]

/-- The starts of records increase. -/
theorem assemble_pairwise (s : Source) (version : Int32) :
    (assemble s version).Pairwise fun f g => f.span.start < g.span.start := by
  rw [assemble_eq, List.pairwise_map]
  exact declarations_starts s

/-- No two records start together. -/
theorem eq_of_start_eq {s : Source} {version : Int32} {f g : Routine} (hf : f ∈ assemble s version)
    (hg : g ∈ assemble s version) (h : f.span.start = g.span.start) : f = g := by
  obtain ⟨before, after, hsplit⟩ := List.append_of_mem hf
  have hp := assemble_pairwise s version
  rw [hsplit] at hp hg
  obtain ⟨-, hafter, hbefore⟩ := List.pairwise_append.1 hp
  rcases List.mem_append.1 hg with hg | hg
  · exact absurd h (ne_of_gt (hbefore g hg f List.mem_cons_self))
  · rcases List.mem_cons.1 hg with rfl | hg
    · rfl
    · exact absurd h (ne_of_lt (List.rel_of_pairwise_cons hafter hg))

/-! ### What starts last -/

section

variable {α : Type} {start : α → Position} {l : List α} {a : α}

theorem latest?_eq_none_iff : latest? start l = none ↔ l = [] := by
  cases l with
  | nil => simp [latest?]
  | cons b rest =>
      simp only [latest?]
      split
      · simp
      · split <;> simp

/-- What starts last is a member of the list, and no member starts after it. -/
theorem latest?_spec (h : latest? start l = some a) : a ∈ l ∧ ∀ b ∈ l, start b ≤ start a := by
  induction l generalizing a with
  | nil => simp [latest?] at h
  | cons b rest ih =>
      simp only [latest?] at h
      split at h
      · next hrest =>
          rw [latest?_eq_none_iff] at hrest
          simp only [Option.some.injEq] at h
          subst h hrest
          exact ⟨List.mem_cons_self, fun c hc => by rw [List.mem_singleton.1 hc]⟩
      · next c hc =>
          obtain ⟨hmem, hmax⟩ := ih hc
          split at h
          · next hle =>
              simp only [Option.some.injEq] at h
              subst h
              refine ⟨List.mem_cons_of_mem b hmem, ?_⟩
              intro e he
              rcases List.mem_cons.1 he with rfl | he
              · exact hle
              · exact hmax e he
          · next hnot =>
              simp only [Option.some.injEq] at h
              subst h
              refine ⟨List.mem_cons_self, ?_⟩
              intro e he
              rcases List.mem_cons.1 he with rfl | he
              · exact le_refl _
              · exact le_trans (hmax e he) (le_of_lt (lt_of_not_ge hnot))

end

/-- The innermost record at a position holds it, and no record that starts later does. -/
theorem routineAt?_eq_some_iff {s : Source} {version : Int32} {f : Routine} {p : Position}
    (hf : f ∈ assemble s version) (hp : f.span.contains p = true) :
    routineAt? (assemble s version) p = some f ↔
      ∀ g ∈ assemble s version, f.span.start < g.span.start → g.span.contains p = false := by
  have hmem : f ∈ (assemble s version).filter (·.span.contains p) :=
    List.mem_filter.2 ⟨hf, hp⟩
  constructor
  · intro h g hg hlt
    cases hgp : g.span.contains p with
    | false => rfl
    | true =>
        have hle := (latest?_spec h).2 g (List.mem_filter.2 ⟨hg, hgp⟩)
        exact absurd hlt (not_lt_of_ge hle)
  · intro h
    cases hlast : routineAt? (assemble s version) p with
    | none =>
        have hnil := latest?_eq_none_iff.1 hlast
        rw [hnil] at hmem
        simp at hmem
    | some g =>
        obtain ⟨hg, hmax⟩ := latest?_spec hlast
        obtain ⟨hg, hgp⟩ := List.mem_filter.1 hg
        rcases lt_or_eq_of_le (hmax f hmem) with hlt | heq
        · have hnot := h g hg hlt
          rw [hgp] at hnot
          exact Bool.noConfusion hnot
        · rw [eq_of_start_eq hf hg heq]

end ScriptOutline
