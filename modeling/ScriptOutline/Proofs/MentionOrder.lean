/-
**The mentions of a line come in the order of their columns.**

A declaration line lists its names from left to right, piece by piece and in each piece along the
chain.  So do a loop with its two names and a line with several assignments; a line catches no more
than one error.

Main results:

* `StandsAt.bounds` — a piece that stands in a text does not reach out of it;
* `chainNames_pairwise`, `withColumns_pairwise` — the columns of chains and of pieces increase;
* `declaredOn?_pairwise` — the columns of a declaration line increase;
* `loopNames_pairwise`, `caughtNames_pairwise`, `assignedNames_pairwise` — so do those of the ways
  in which other lines bring in names.
-/

import Mathlib.Data.List.Pairwise
import ScriptOutline.Proofs.MentionColumns

set_option relaxedAutoImplicit false
set_option autoImplicit false

namespace ScriptOutline

/-- A piece that stands in a text does not reach out of it. -/
theorem StandsAt.bounds {base column : Nat} {cs piece : List Char}
    (h : StandsAt base cs piece column) :
    base ≤ column ∧ column + piece.length ≤ base + cs.length := by
  obtain ⟨before, after, rfl, rfl⟩ := h
  simp only [List.length_append]
  omega

/-! ### Declaration lines -/

/-- What follows an assignment mark is shorter than the text from the name on. -/
theorem assignedName?_length_trimStart {cs name rest : List Char}
    (h : assignedName? cs = some (name, rest)) : rest.length < (trimStart cs).length := by
  unfold assignedName? at h
  split at h
  · simp at h
  · next name' after hname =>
      obtain ⟨value, hvalue, heq⟩ := Option.map_eq_some_iff.1 h
      obtain ⟨-, rfl⟩ := Prod.mk.inj heq
      have hlt := afterAssign?_length hvalue
      have hcs := congrArg List.length (identifier?_eq_some hname)
      rw [List.length_append] at hcs
      omega

/-- The columns of a chain increase. -/
theorem chainNames_pairwise (column : Nat) (cs : List Char) :
    (chainNames column cs).1.Pairwise fun a b => a.2 < b.2 := by
  fun_induction chainNames column cs with
  | case1 => exact List.Pairwise.nil
  | case2 column cs first rest hfirst names value hrest ih =>
      rw [hrest] at ih
      refine List.Pairwise.cons ?_ ih
      rintro ⟨name, k⟩ hname
      have hmem : (name, k) ∈ (chainNames (column + (cs.length - rest.length)) rest).1 := by
        rw [hrest]
        exact hname
      obtain ⟨hle, -⟩ := (standsAt_of_mem_chainNames hmem).2.bounds
      have hlt := assignedName?_length_trimStart hfirst
      have hsuffix := (trimStart_suffix cs).length_le
      simp only
      omega

theorem readChain_pairwise (column : Nat) (cs : List Char) :
    (readChain column cs).1.Pairwise fun a b => a.2 < b.2 := by
  have hchain := chainNames_pairwise column cs
  unfold readChain
  generalize chainNames column cs = chain at hchain ⊢
  obtain ⟨names, value⟩ := chain
  simp only
  split
  · split
    · exact List.pairwise_singleton _ _
    · exact List.Pairwise.nil
  · exact hchain

/-- The mentions of a piece stand in it, from left to right. -/
theorem declaredIn_pairwise (column : Nat) (piece : List Char) :
    (declaredIn column piece).Pairwise fun a b => a.column < b.column := by
  rw [declaredIn, List.pairwise_map]
  exact readChain_pairwise column piece

theorem bounds_of_mem_declaredIn {column : Nat} {piece : List Char} {m : Mention}
    (h : m ∈ declaredIn column piece) : column ≤ m.column ∧ m.column ≤ column + piece.length := by
  obtain ⟨⟨name, k⟩, hname, rfl⟩ := List.mem_map.1 h
  obtain ⟨hle, hlength⟩ := (standsAt_of_mem_readChain hname).2.bounds
  exact ⟨hle, by simp only; omega⟩

theorem le_of_mem_withColumns {column k : Nat} {pieces : List (List Char)} {piece : List Char}
    (h : (k, piece) ∈ withColumns column pieces) : column ≤ k := by
  induction pieces generalizing column with
  | nil => simp [withColumns] at h
  | cons first rest ih =>
      rcases List.mem_cons.1 h with heq | h
      · rw [(Prod.mk.inj heq).1]
      · exact Nat.le_trans (by omega) (ih h)

/-- Every piece starts behind the end of the one before. -/
theorem withColumns_pairwise (column : Nat) (pieces : List (List Char)) :
    (withColumns column pieces).Pairwise fun a b => a.1 + a.2.length < b.1 := by
  induction pieces generalizing column with
  | nil => exact List.Pairwise.nil
  | cons first rest ih =>
      refine List.Pairwise.cons ?_ (ih _)
      rintro ⟨k, piece⟩ h
      exact le_of_mem_withColumns h

/-- The columns of a declaration line increase. -/
theorem declaredOn?_pairwise {cs : List Char} {scope : Scope} {mentions : List Mention}
    (h : declaredOn? cs = some (scope, mentions)) :
    mentions.Pairwise fun a b => a.column < b.column := by
  obtain ⟨⟨scope', rest⟩, -, heq⟩ := Option.map_eq_some_iff.1 h
  obtain ⟨-, rfl⟩ := Prod.mk.inj heq
  rw [List.pairwise_flatMap]
  constructor
  · rintro ⟨column, piece⟩ -
    exact declaredIn_pairwise column piece
  · refine (withColumns_pairwise _ _).imp ?_
    rintro ⟨column, piece⟩ ⟨column', piece'⟩ hlt a ha b hb
    obtain ⟨-, hle⟩ := bounds_of_mem_declaredIn ha
    obtain ⟨hge, -⟩ := bounds_of_mem_declaredIn hb
    exact Nat.lt_of_le_of_lt hle (Nat.lt_of_lt_of_le hlt hge)

/-! ### Other lines -/

/-- The first name of a loop comes before the second. -/
theorem loopNames_pairwise (cs : List Char) :
    (loopNames cs).Pairwise fun a b => a.column < b.column := by
  unfold loopNames
  split
  · exact List.Pairwise.nil
  · next first rest hfirst =>
      obtain ⟨inner, hfor, hname⟩ := Option.bind_eq_some_iff.1 hfirst
      split
      · next more hmore =>
          split
          · exact List.Pairwise.nil
          · next second after hsecond =>
              split
              · -- the second name stands in what follows the first
                refine List.pairwise_pair.2 ?_
                have hcs := (afterFor?_suffix hfor).length_le
                have hinner := congrArg List.length (identifier?_eq_some hname)
                have hrest := (trimStart_suffix rest).length_le
                have hmore' := (trimStart_suffix more).length_le
                have hlast := congrArg List.length (identifier?_eq_some hsecond)
                rw [hmore, List.length_cons] at hrest
                rw [List.length_append] at hinner hlast
                simp only [Mention.before]
                omega
              · exact List.Pairwise.nil
      · split
        · exact List.pairwise_singleton _ _
        · exact List.Pairwise.nil

theorem caughtNames_pairwise (cs : List Char) :
    (caughtNames cs).Pairwise fun a b => a.column < b.column := by
  unfold caughtNames
  split
  · exact List.Pairwise.nil
  · exact List.pairwise_singleton _ _

theorem column_of_mem_assignmentAt {before : Option Char} {column : Nat} {cs : List Char}
    {m : Mention} (h : m ∈ assignmentAt before column cs) : m.column = column := by
  obtain ⟨name, rest, value, -, -, -, rfl⟩ := exists_of_mem_assignmentAt h
  rfl

theorem assignmentAt_pairwise (before : Option Char) (column : Nat) (cs : List Char) :
    (assignmentAt before column cs).Pairwise fun a b => a.column < b.column := by
  unfold assignmentAt
  split
  · exact List.Pairwise.nil
  · split
    · exact List.Pairwise.nil
    · split
      · exact List.pairwise_singleton _ _
      · exact List.Pairwise.nil

theorem assignmentsFrom_pairwise (inName : Bool) (before : Option Char) (column : Nat)
    (cs : List Char) :
    (assignmentsFrom inName before column cs).Pairwise fun a b => a.column < b.column := by
  induction cs generalizing inName before column with
  | nil => exact List.Pairwise.nil
  | cons c rest ih =>
      simp only [assignmentsFrom]
      split
      · exact ih _ _ _
      · refine List.pairwise_append.2 ⟨assignmentAt_pairwise _ _ _, ih _ _ _, ?_⟩
        intro a ha b hb
        rw [column_of_mem_assignmentAt ha]
        exact (standsAt_of_mem_assignmentsFrom hb).2.bounds.1

/-- The columns of the assignments of a line increase. -/
theorem assignedNames_pairwise (cs : List Char) :
    (assignedNames cs).Pairwise fun a b => a.column < b.column :=
  assignmentsFrom_pairwise false none 0 cs

end ScriptOutline
