/-
**Brackets that close.**

A walk that looks for the end of something may run to the end of the text, and then more text could
change its answer.  It does not if every bracket that is opened is closed again, where all three
kinds are counted together: the list of parameters and the expression after an arrow then end
before the text does.

Main definitions:

* `closesFrom` — whether a number of open brackets is closed again;
* `openersClose` — whether this holds of every bracket that opens.

Main results:

* `cellsToClose?_append` — a list of parameters that closes is read without what follows;
* `ArrowState.depth_eq_zero_of_run` — a walk over brackets that close ends outside of them;
* `ArrowState.run_eq_error` — a walk over some bracket stops at the next line break outside of
  brackets, at the latest.
-/

import ScriptOutline.Declaration.Header
import ScriptOutline.Proofs.ArrowWalk

set_option relaxedAutoImplicit false
set_option autoImplicit false

namespace ScriptOutline

/-! ### Counting brackets -/

/-- Whether the closing brackets among spots bring a number of open brackets back to zero. -/
def closesFrom (depth : Nat) : List Spot → Bool
  | [] => false
  | x :: rest =>
    if x.cell.isOpener then closesFrom (depth + 1) rest
    else if x.cell.isCloser then depth ≤ 1 || closesFrom (depth - 1) rest
    else closesFrom depth rest

/-- Whether a later closing bracket brings the count since each opening one back to zero. -/
def openersClose : List Spot → Bool
  | [] => true
  | x :: rest => (!x.cell.isOpener || closesFrom 1 rest) && openersClose rest

theorem openersClose_of_suffix {xs ys : List Spot} (h : ys <:+ xs) (hxs : openersClose xs = true) :
    openersClose ys = true := by
  obtain ⟨before, rfl⟩ := h
  induction before with
  | nil => exact hxs
  | cons x rest ih =>
      simp only [List.cons_append, openersClose, Bool.and_eq_true] at hxs
      exact ih hxs.2

/-- What follows an opening bracket brings the count back to zero. -/
theorem closesFrom_of_openersClose {before rest : List Spot} {o : Spot}
    (h : openersClose (before ++ o :: rest) = true) (ho : o.cell.isOpener = true) :
    closesFrom 1 rest = true := by
  have hsuffix := openersClose_of_suffix (List.suffix_append before (o :: rest)) h
  simp only [openersClose, ho, Bool.not_true, Bool.false_or, Bool.and_eq_true] at hsuffix
  exact hsuffix.1

theorem closesFrom_not_bracket {depth : Nat} {x : Spot} {rest : List Spot}
    (hx : x.cell.isBracket = false) : closesFrom depth (x :: rest) = closesFrom depth rest := by
  simp only [Cell.isBracket, Bool.or_eq_false_iff] at hx
  simp [closesFrom, hx.1, hx.2]

/-- One bracket changes the number of those that are open, and they still close. -/
theorem closesFrom_bracketStep {depth : Nat} {x : Spot} {rest : List Spot}
    (h : closesFrom depth (x :: rest) = true) :
    bracketStep depth x.cell = 0 ∨ closesFrom (bracketStep depth x.cell) rest = true := by
  simp only [closesFrom] at h
  unfold bracketStep
  split
  · next ho =>
      rw [if_pos ho] at h
      exact Or.inr h
  · next ho =>
      rw [if_neg ho] at h
      split
      · next hc =>
          rw [if_pos hc] at h
          simp only [Bool.or_eq_true, decide_eq_true_eq] at h
          rcases h with h | h
          · exact Or.inl (by omega)
          · exact Or.inr h
      · next hc =>
          rw [if_neg hc] at h
          exact Or.inr h

/-! ### Lists of parameters -/

/-- A list of parameters that closes is read without what follows. -/
theorem cellsToClose?_append {lastLine depth : Nat} {spots : List Spot}
    (h : closesFrom (depth + 1) spots = true) (more : List Spot) :
    cellsToClose? lastLine depth (spots ++ more) = cellsToClose? lastLine depth spots := by
  induction spots generalizing depth with
  | nil => simp [closesFrom] at h
  | cons x rest ih =>
      simp only [List.cons_append, cellsToClose?]
      split
      · rfl
      · split
        · next hquiet =>
            rw [closesFrom_not_bracket (Spot.not_bracket_of_blanked hquiet)] at h
            rw [ih h]
        · split
          · rfl
          · next hcloser =>
              -- the list itself is one more bracket that is open, so the count stays positive
              have hrest : closesFrom (bracketStep depth x.cell + 1) rest = true := by
                simp only [Bool.and_eq_true, decide_eq_true_eq, not_and] at hcloser
                simp only [closesFrom] at h
                unfold bracketStep
                split
                · next ho =>
                    rw [if_pos ho] at h
                    exact h
                · next ho =>
                    rw [if_neg ho] at h
                    split
                    · next hc =>
                        have hpos : depth ≠ 0 := fun hzero => hcloser hzero hc
                        rw [if_pos hc] at h
                        simp only [Bool.or_eq_true, decide_eq_true_eq,
                          Nat.add_sub_cancel] at h
                        rcases h with h | h
                        · omega
                        · rwa [Nat.sub_add_cancel (Nat.one_le_iff_ne_zero.2 hpos)]
                    · next hc =>
                        rw [if_neg hc] at h
                        exact h
              rw [ih hrest]

/-! ### Expressions -/

namespace ArrowState

/-- A walk over brackets that close ends outside of them. -/
theorem depth_eq_zero_of_run {state next : ArrowState} {xs : List Spot}
    (hxs : openersClose xs = true) (hdepth : state.depth = 0 ∨ closesFrom state.depth xs = true)
    (hrun : state.run xs = .ok next) : next.depth = 0 := by
  induction xs generalizing state with
  | nil =>
      simp only [run, Except.ok.injEq] at hrun
      rw [← hrun]
      rcases hdepth with hdepth | hdepth
      · exact hdepth
      · simp [closesFrom] at hdepth
  | cons x rest ih =>
      simp only [openersClose, Bool.and_eq_true, Bool.or_eq_true, Bool.not_eq_true'] at hxs
      simp only [run] at hrun
      rcases step_cases state x with
        ⟨stop, -, -, hstep⟩ | ⟨hquiet, hstep⟩ | ⟨-, -, -, hstep⟩ | ⟨-, hcloser, hstep⟩
      · simp [hstep] at hrun
      · rw [hstep] at hrun
        rw [closesFrom_not_bracket (Spot.isBracket_of_isQuiet hquiet)] at hdepth
        exact ih hxs.2 hdepth hrun
      · simp [hstep] at hrun
      · rw [hstep] at hrun
        refine ih hxs.2 ?_ hrun
        rcases hdepth with hdepth | hdepth
        · -- outside of brackets only one that opens changes the count, and it closes behind
          simp only [hdepth] at hcloser ⊢
          unfold bracketStep
          split
          · next ho =>
              rcases hxs.1 with hnot | hclose
              · rw [ho] at hnot
                exact Bool.noConfusion hnot
              · exact Or.inr hclose
          · split
            · next hc => exact absurd (hcloser hc) (Nat.lt_irrefl 0)
            · exact Or.inl rfl
        · exact closesFrom_bracketStep hdepth

/-- A walk that passes a bracket has read something. -/
theorem last_ne_none_of_run {state next : ArrowState} {before after : List Spot} {x : Spot}
    (hx : x.cell.isBracket = true) (hrun : state.run (before ++ x :: after) = .ok next) :
    next.last ≠ none := by
  intro hnone
  rw [run_append] at hrun
  cases hbefore : state.run before with
  | error stop => simp [hbefore] at hrun
  | ok middle =>
      rw [hbefore] at hrun
      simp only [run] at hrun
      rcases step_cases middle x with
        ⟨stop, -, -, hstep⟩ | ⟨hquiet, -⟩ | ⟨-, -, -, hstep⟩ | ⟨-, -, hstep⟩
      · simp [hstep] at hrun
      · rw [Spot.isBracket_of_isQuiet hquiet] at hx
        exact Bool.noConfusion hx
      · simp [hstep] at hrun
      · rw [hstep] at hrun
        have heq := eq_of_run_none hrun hnone
        rw [heq] at hnone
        simp at hnone

theorem step_break {brk : Spot} (hbreak : brk.isBreak = true) (stop : Position) :
    step ⟨0, some stop⟩ brk = .error stop := by
  simp only [step, hbreak, if_true]

/-- A walk over some bracket stops at the next line break outside of brackets, at the latest. -/
theorem run_eq_error {xs : List Spot} {x brk : Spot} (hxs : openersClose (xs ++ [brk]) = true)
    (hx : x ∈ xs) (hbracket : x.cell.isBracket = true) (hbreak : brk.isBreak = true) :
    ∃ stop, run ⟨0, none⟩ (xs ++ [brk]) = .error stop := by
  cases hrun : run ⟨0, none⟩ (xs ++ [brk]) with
  | error stop => exact ⟨stop, rfl⟩
  | ok next =>
      have hdepth := depth_eq_zero_of_run hxs (Or.inl rfl) hrun
      obtain ⟨before, after, rfl⟩ := List.append_of_mem hx
      have hlast : next.last ≠ none := by
        rw [List.append_assoc, List.cons_append] at hrun
        exact last_ne_none_of_run hbracket hrun
      obtain ⟨l, hl⟩ := Option.ne_none_iff_exists'.1 hlast
      obtain ⟨depth, last⟩ := next
      simp only at hdepth hl
      subst hdepth hl
      -- the break left the state as it was, in which the walk stops there
      rw [run_append] at hrun
      cases hbefore : run ⟨0, none⟩ (before ++ x :: after) with
      | error stop => simp [hbefore] at hrun
      | ok state =>
          rw [hbefore] at hrun
          simp only [run] at hrun
          have hquiet : brk.isQuiet = true := by simp [Spot.isQuiet, hbreak]
          rcases step_cases state brk with
            ⟨stop, -, -, hstep⟩ | ⟨-, hstep⟩ | ⟨hnot, -⟩ | ⟨hnot, -⟩
          · simp [hstep] at hrun
          · have hstop := step_break hbreak l
            simp only [hstep, Except.ok.injEq] at hrun
            rw [hrun] at hstep
            rw [hstep] at hstop
            simp at hstop
          · rw [hquiet] at hnot
            exact Bool.noConfusion hnot
          · rw [hquiet] at hnot
            exact Bool.noConfusion hnot

end ArrowState

end ScriptOutline
