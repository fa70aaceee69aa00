/-
**The walk after an arrow.**

The end of an expression is found by walking over spots, with the number of open brackets and the
end of what was read.  Cut into single steps, the walk over one part of a text can be told apart from
the walk over the next, and its end can be bounded from both sides.

Main definitions:

* `bracketBalance` — the opening less the closing brackets among spots, of all three kinds;
* `ArrowState`, `ArrowState.step`, `ArrowState.run` — what the walk knows, one spot, and many;
* `ArrowState.finish` — where the expression ends when the text does;
* `Spot.isQuiet` — whether the walk passes a spot by.

Main results:

* `arrowStop_eq_run` — the end of an expression is where the run stops;
* `ArrowState.step_cases` — the four things that a step can do;
* `ArrowState.run_balance` — a run that goes on keeps count of the brackets;
* `ArrowState.run_closer` — a run stops at a bracket that was opened before it;
* `ArrowState.run_preserves` — what holds of both sides of every character holds of where a run
  stops;
* `ArrowState.run_le`, `ArrowState.le_run` — bounds of that place;
* `ArrowState.finish_mono`, `ArrowState.finish_le_of_later` — of two walks over the same spots, the
  one with fewer open brackets ends first.
-/

import ScriptOutline.Declaration.Tail
import ScriptOutline.Proofs.ReadingOrder

set_option relaxedAutoImplicit false
set_option autoImplicit false

namespace ScriptOutline

/-! ### Brackets -/

/-- The number of opening less the number of closing brackets among spots, of all three kinds. -/
def bracketBalance (spots : List Spot) : Int :=
  (spots.countP (·.cell.isOpener) : Int) - spots.countP (·.cell.isCloser)

@[simp] theorem bracketBalance_nil : bracketBalance [] = 0 := rfl

@[simp] theorem bracketBalance_append (xs ys : List Spot) :
    bracketBalance (xs ++ ys) = bracketBalance xs + bracketBalance ys := by
  simp only [bracketBalance, List.countP_append]
  omega

theorem Cell.isCloser_of_isOpener {c : Cell} (h : c.isOpener = true) : c.isCloser = false := by
  simp only [Cell.isOpener, ScriptOutline.isOpener, Bool.and_eq_true, Bool.or_eq_true,
    decide_eq_true_eq] at h
  rcases h with ⟨-, (h | h) | h⟩
  · simp [Cell.isCloser, ScriptOutline.isCloser, h]
  · simp [Cell.isCloser, ScriptOutline.isCloser, h]
  · simp [Cell.isCloser, ScriptOutline.isCloser, h]

theorem Cell.isOpener_of_isCloser {c : Cell} (h : c.isCloser = true) : c.isOpener = false := by
  cases ho : c.isOpener with
  | false => rfl
  | true =>
      rw [Cell.isCloser_of_isOpener ho] at h
      exact Bool.noConfusion h

theorem bracketBalance_cons (x : Spot) (rest : List Spot) :
    bracketBalance (x :: rest) = bracketBalance [x] + bracketBalance rest :=
  bracketBalance_append [x] rest

theorem bracketBalance_opener {x : Spot} (h : x.cell.isOpener = true) : bracketBalance [x] = 1 := by
  simp [bracketBalance, h, Cell.isCloser_of_isOpener h]

theorem bracketBalance_closer {x : Spot} (h : x.cell.isCloser = true) :
    bracketBalance [x] = -1 := by
  simp [bracketBalance, h, Cell.isOpener_of_isCloser h]

theorem bracketBalance_other {x : Spot} (ho : x.cell.isOpener = false)
    (hc : x.cell.isCloser = false) : bracketBalance [x] = 0 := by
  simp [bracketBalance, ho, hc]

/-- Whether a cell is a bracket of the code. -/
def Cell.isBracket (c : Cell) : Bool :=
  c.isOpener || c.isCloser

theorem bracketBalance_not_bracket {x : Spot} (h : x.cell.isBracket = false) :
    bracketBalance [x] = 0 := by
  simp only [Cell.isBracket, Bool.or_eq_false_iff] at h
  exact bracketBalance_other h.1 h.2

theorem bracketStep_opener {depth : Nat} {c : Cell} (h : c.isOpener = true) :
    bracketStep depth c = depth + 1 := by
  simp [bracketStep, h]

theorem bracketStep_closer {depth : Nat} {c : Cell} (h : c.isCloser = true) :
    bracketStep depth c = depth - 1 := by
  simp [bracketStep, h, Cell.isOpener_of_isCloser h]

/-- A bracket that is read where it may be changes the count as it changes the balance. -/
theorem bracketStep_eq_add {depth : Nat} {x : Spot} (h : x.cell.isCloser = true → 0 < depth) :
    (bracketStep depth x.cell : Int) = depth + bracketBalance [x] := by
  by_cases ho : x.cell.isOpener = true
  · rw [bracketStep_opener ho, bracketBalance_opener ho]
    omega
  · by_cases hc : x.cell.isCloser = true
    · have hpos := h hc
      rw [bracketStep_closer hc, bracketBalance_closer hc]
      omega
    · rw [bracketBalance_other (by simpa using ho) (by simpa using hc)]
      simp [bracketStep, ho, hc]

/-- Brackets are characters of the code that can be seen. -/
theorem Cell.isBracket_spec {c : Cell} (h : c.isBracket = true) :
    c.region = .code ∧ isBlank c.char = false ∧ c.char ≠ '\n' := by
  simp only [Cell.isBracket, Cell.isOpener, Cell.isCloser, Cell.isCode, ScriptOutline.isOpener,
    ScriptOutline.isCloser, Bool.or_eq_true, Bool.and_eq_true, decide_eq_true_eq] at h
  rcases h with ⟨hcode, (h | h) | h⟩ | ⟨hcode, (h | h) | h⟩
  all_goals
    rw [h]
    exact ⟨hcode, by decide, by decide⟩

/-! ### Steps of the walk -/

/-- What the walk after an arrow knows: the open brackets, and the end of what it has read. -/
structure ArrowState where
  depth : Nat
  last : Option Position
  deriving DecidableEq, Repr

namespace ArrowState

/-- One spot: the expression stops, or the walk goes on. -/
def step (state : ArrowState) (x : Spot) : Except Position ArrowState :=
  if x.isBreak then
    match state.depth, state.last with
    | 0, some stop => .error stop
    | _, _ => .ok state
  else if x.cell.isComment || isBlank x.cell.char then .ok state
  else if state.depth = 0 && x.cell.isCloser then .error (state.last.getD x.position)
  else .ok ⟨bracketStep state.depth x.cell, some x.position.next⟩

/-- The walk over spots, up to where the expression stops. -/
def run (state : ArrowState) : List Spot → Except Position ArrowState
  | [] => .ok state
  | x :: rest =>
    match state.step x with
    | .ok next => next.run rest
    | .error stop => .error stop

/-- Where an expression ends if the walk comes to the end of the text. -/
def finish (finish : Position) : Except Position ArrowState → Position
  | .ok state => state.last.getD finish
  | .error stop => stop

end ArrowState

/-- The end of an expression is where the run stops. -/
theorem arrowStop_eq_run (finish : Position) (depth : Nat) (last : Option Position)
    (spots : List Spot) :
    arrowStop finish depth last spots =
      ArrowState.finish finish (ArrowState.run ⟨depth, last⟩ spots) := by
  induction spots generalizing depth last with
  | nil => rfl
  | cons x rest ih =>
      simp only [arrowStop, ArrowState.run, ArrowState.step]
      split
      · cases depth with
        | zero =>
            cases last with
            | none => exact ih 0 none
            | some stop => rfl
        | succ depth => exact ih (depth + 1) last
      · split
        · exact ih depth last
        · split
          · rfl
          · exact ih (bracketStep depth x.cell) (some x.position.next)

/-- Whether a walk passes a spot by: a line break, a blank, or part of a comment. -/
def Spot.isQuiet (x : Spot) : Bool :=
  x.isBreak || (x.cell.isComment || isBlank x.cell.char)

theorem Spot.isBracket_of_isQuiet {x : Spot} (h : x.isQuiet = true) :
    x.cell.isBracket = false := by
  cases hx : x.cell.isBracket with
  | false => rfl
  | true =>
      obtain ⟨hcode, hblank, hbreak⟩ := Cell.isBracket_spec hx
      simp only [isQuiet, Bool.or_eq_true, isBreak, decide_eq_true_eq] at h
      rcases h with h | h | h
      · exact absurd h hbreak
      · simp [Cell.isComment, hcode, Region.isComment] at h
      · rw [hblank] at h
        exact Bool.noConfusion h

/-- A spot that is read as a blank is no bracket. -/
theorem Spot.not_bracket_of_blanked {x : Spot} (h : (x.isBreak || x.cell.isComment) = true) :
    x.cell.isBracket = false := by
  apply Spot.isBracket_of_isQuiet
  rcases Bool.or_eq_true_iff.1 h with hbreak | hcomment
  · simp [Spot.isQuiet, hbreak]
  · simp [Spot.isQuiet, hcomment]

namespace ArrowState

/-- The four things that a step can do. -/
theorem step_cases (state : ArrowState) (x : Spot) :
    (∃ stop, state = ⟨0, some stop⟩ ∧ x.isQuiet = true ∧ state.step x = .error stop) ∨
    (x.isQuiet = true ∧ state.step x = .ok state) ∨
    (x.isQuiet = false ∧ state.depth = 0 ∧ x.cell.isCloser = true ∧
      state.step x = .error (state.last.getD x.position)) ∨
    (x.isQuiet = false ∧ (x.cell.isCloser = true → 0 < state.depth) ∧
      state.step x = .ok ⟨bracketStep state.depth x.cell, some x.position.next⟩) := by
  unfold step
  split
  · next hbreak =>
      have hquiet : x.isQuiet = true := by simp [Spot.isQuiet, hbreak]
      obtain ⟨depth, last⟩ := state
      cases depth with
      | zero =>
          cases last with
          | none => exact Or.inr (Or.inl ⟨hquiet, rfl⟩)
          | some stop => exact Or.inl ⟨stop, rfl, hquiet, rfl⟩
      | succ depth => exact Or.inr (Or.inl ⟨hquiet, rfl⟩)
  · next hbreak =>
      split
      · next hblank => exact Or.inr (Or.inl ⟨by simp [Spot.isQuiet, hblank], rfl⟩)
      · next hblank =>
          have hquiet : x.isQuiet = false := by simp [Spot.isQuiet, hbreak, hblank]
          split
          · next hcloser =>
              simp only [Bool.and_eq_true, decide_eq_true_eq] at hcloser
              exact Or.inr (Or.inr (Or.inl ⟨hquiet, hcloser.1, hcloser.2, rfl⟩))
          · next hcloser =>
              simp only [Bool.and_eq_true, decide_eq_true_eq, not_and] at hcloser
              refine Or.inr (Or.inr (Or.inr ⟨hquiet, ?_, rfl⟩))
              intro hx
              exact Nat.pos_of_ne_zero fun h => hcloser h hx

/-- A bracket that opens always takes a step, and one that closes does so inside of others. -/
theorem step_bracket {state : ArrowState} {x : Spot} (hx : x.cell.isBracket = true)
    (hcloser : x.cell.isCloser = true → 0 < state.depth) :
    state.step x = .ok ⟨bracketStep state.depth x.cell, some x.position.next⟩ := by
  have hquiet : x.isQuiet = false := by
    cases hq : x.isQuiet with
    | false => rfl
    | true =>
        rw [Spot.isBracket_of_isQuiet hq] at hx
        exact Bool.noConfusion hx
  rcases step_cases state x with
    ⟨stop, -, hq, -⟩ | ⟨hq, -⟩ | ⟨-, hdepth, hx', -⟩ | ⟨-, -, h⟩
  · rw [hq] at hquiet
    exact Bool.noConfusion hquiet
  · rw [hq] at hquiet
    exact Bool.noConfusion hquiet
  · have hpos := hcloser hx'
    omega
  · exact h

theorem run_append (state : ArrowState) (xs ys : List Spot) :
    state.run (xs ++ ys) =
      match state.run xs with
      | .ok next => next.run ys
      | .error stop => .error stop := by
  induction xs generalizing state with
  | nil => rfl
  | cons x rest ih =>
      simp only [List.cons_append, run]
      cases state.step x with
      | error stop => rfl
      | ok next => exact ih next

/-- A run that goes on keeps count of the brackets. -/
theorem run_balance {state next : ArrowState} {xs : List Spot} (h : state.run xs = .ok next) :
    (next.depth : Int) = state.depth + bracketBalance xs := by
  induction xs generalizing state with
  | nil =>
      simp only [run, Except.ok.injEq] at h
      simp [h]
  | cons x rest ih =>
      simp only [run] at h
      rw [bracketBalance_cons]
      rcases step_cases state x with
        ⟨stop, -, -, hstep⟩ | ⟨hquiet, hstep⟩ | ⟨-, -, -, hstep⟩ | ⟨-, hcloser, hstep⟩
      · simp [hstep] at h
      · rw [hstep] at h
        rw [ih h, bracketBalance_not_bracket (Spot.isBracket_of_isQuiet hquiet)]
        omega
      · simp [hstep] at h
      · -- a closing bracket is only read while others are open
        have hcount := bracketStep_eq_add hcloser
        rw [hstep] at h
        rw [ih h]
        simp only
        omega

/-- A run stops at a bracket that was opened before it. -/
theorem run_closer {state : ArrowState} {xs : List Spot} {c : Spot}
    (hbalance : state.depth + bracketBalance xs ≤ 0) (hc : c.cell.isCloser = true) :
    ∃ stop, state.run (xs ++ [c]) = .error stop := by
  rw [run_append]
  cases hrun : state.run xs with
  | error stop => exact ⟨stop, rfl⟩
  | ok next =>
      have hdepth := run_balance hrun
      simp only [run]
      rcases step_cases next c with
        ⟨stop, -, -, hstep⟩ | ⟨hquiet, -⟩ | ⟨-, -, -, hstep⟩ | ⟨-, hcloser, -⟩
      · exact ⟨stop, by rw [hstep]⟩
      · have hnot := Spot.isBracket_of_isQuiet hquiet
        simp [Cell.isBracket, hc] at hnot
      · exact ⟨next.last.getD c.position, by rw [hstep]⟩
      · -- to be read, the bracket would need another open one
        have hpos := hcloser hc
        omega

/-! ### Bounds -/

/-- What holds of both sides of every character holds of where a walk stops. -/
theorem run_preserves {P : Position → Prop} {state : ArrowState} {xs : List Spot}
    (hlast : ∀ l ∈ state.last, P l)
    (hxs : ∀ x ∈ xs, x.isBreak = false → P x.position ∧ P x.position.next) :
    match state.run xs with
    | .ok next => ∀ l ∈ next.last, P l
    | .error stop => P stop := by
  induction xs generalizing state with
  | nil => exact hlast
  | cons x rest ih =>
      obtain ⟨hx, hrest⟩ := List.forall_mem_cons.1 hxs
      have hchar (hquiet : x.isQuiet = false) : x.isBreak = false := by
        simp only [Spot.isQuiet, Bool.or_eq_false_iff] at hquiet
        exact hquiet.1
      simp only [run]
      rcases step_cases state x with
        ⟨stop, hstate, -, hstep⟩ | ⟨-, hstep⟩ | ⟨hquiet, -, -, hstep⟩ | ⟨hquiet, -, hstep⟩
      · rw [hstep]
        exact hlast stop (by rw [hstate]; rfl)
      · rw [hstep]
        exact ih hlast hrest
      · -- the walk stops at a bracket: behind what was read, or right before it
        rw [hstep]
        cases hl : state.last with
        | none => exact (hx (hchar hquiet)).1
        | some l => exact hlast l hl
      · rw [hstep]
        refine ih ?_ hrest
        intro l hl
        rw [← Option.some.inj hl]
        exact (hx (hchar hquiet)).2

/-- What was read of an expression ends before a position, and so does a walk up to there. -/
theorem run_le {state : ArrowState} {xs : List Spot} {p : Position}
    (hlast : ∀ l ∈ state.last, l ≤ p) (hxs : ∀ x ∈ xs, x.position < p) :
    match state.run xs with
    | .ok next => ∀ l ∈ next.last, l ≤ p
    | .error stop => stop ≤ p := by
  refine @run_preserves (fun q => q ≤ p) state xs hlast ?_
  intro x hx _
  exact ⟨le_of_lt (hxs x hx), Position.next_le_iff.2 (hxs x hx)⟩

/-- A walk that ends behind a position has gone on up to there. -/
theorem run_ok_of_lt_finish {xs ys : List Spot} {q finish : Position}
    (hxs : ∀ x ∈ xs, x.position < q)
    (h : q < ArrowState.finish finish (run ⟨0, none⟩ (xs ++ ys))) :
    ∃ next, run ⟨0, none⟩ xs = .ok next ∧ ∀ l ∈ next.last, l ≤ q := by
  have hle := @run_le ⟨0, none⟩ xs q (by simp) hxs
  rw [run_append] at h
  cases hrun : run ⟨0, none⟩ xs with
  | error stop =>
      rw [hrun] at hle h
      exact absurd h (not_lt_of_ge hle)
  | ok next =>
      rw [hrun] at hle
      exact ⟨next, rfl, hle⟩

/-- A walk does not go back behind what was read. -/
theorem le_run {state : ArrowState} {xs : List Spot} {p : Position}
    (hlast : ∃ l, state.last = some l ∧ p ≤ l) (hxs : ∀ x ∈ xs, p ≤ x.position) :
    match state.run xs with
    | .ok next => ∃ l, next.last = some l ∧ p ≤ l
    | .error stop => p ≤ stop := by
  induction xs generalizing state with
  | nil => exact hlast
  | cons x rest ih =>
      obtain ⟨hx, hrest⟩ := List.forall_mem_cons.1 hxs
      simp only [run]
      obtain ⟨l, hl, hp⟩ := hlast
      rcases step_cases state x with
        ⟨stop, hstate, -, hstep⟩ | ⟨-, hstep⟩ | ⟨-, -, -, hstep⟩ | ⟨-, -, hstep⟩
      · rw [hstate] at hl
        rw [hstep]
        rw [Option.some.inj hl]
        exact hp
      · rw [hstep]
        exact ih ⟨l, hl, hp⟩ hrest
      · rw [hstep, hl]
        exact hp
      · rw [hstep]
        exact ih ⟨x.position.next, rfl, le_trans hx (le_of_lt x.position.lt_next)⟩ hrest

/-- An expression ends behind what was read of it. -/
theorem le_finish {state : ArrowState} {xs : List Spot} {p finish : Position}
    (hlast : ∃ l, state.last = some l ∧ p ≤ l) (hxs : ∀ x ∈ xs, p ≤ x.position) :
    p ≤ ArrowState.finish finish (state.run xs) := by
  have h := le_run hlast hxs
  cases hrun : state.run xs with
  | error stop =>
      rw [hrun] at h
      exact h
  | ok next =>
      rw [hrun] at h
      obtain ⟨l, hl, hp⟩ := h
      simp only [ArrowState.finish, hl, Option.getD_some]
      exact hp

/-- Where nothing was read, the walk is as it was. -/
theorem eq_of_run_none {state next : ArrowState} {xs : List Spot} (h : state.run xs = .ok next)
    (hnone : next.last = none) : next = state := by
  induction xs generalizing state with
  | nil =>
      simp only [run, Except.ok.injEq] at h
      exact h.symm
  | cons x rest ih =>
      simp only [run] at h
      rcases step_cases state x with
        ⟨stop, -, -, hstep⟩ | ⟨-, hstep⟩ | ⟨-, -, -, hstep⟩ | ⟨-, -, hstep⟩
      · simp [hstep] at h
      · rw [hstep] at h
        exact ih h
      · simp [hstep] at h
      · rw [hstep] at h
        have heq := ih h
        rw [heq] at hnone
        simp at hnone

/-! ### Two walks over the same spots -/

theorem bracketStep_mono {j k : Nat} (h : j ≤ k) (c : Cell) : bracketStep j c ≤ bracketStep k c := by
  unfold bracketStep
  split
  · omega
  · split <;> omega

/-- Where a walk goes on, so does one with more brackets open, and both have read the same. -/
theorem step_mono {j k : Nat} {last : Option Position} {x : Spot} {next : ArrowState} (h : j ≤ k)
    (hstep : step ⟨j, last⟩ x = .ok next) :
    ∃ more, step ⟨k, last⟩ x = .ok more ∧ more.last = next.last ∧ next.depth ≤ more.depth := by
  unfold step at hstep ⊢
  split at hstep
  · next hbreak =>
      -- a break stops only a walk that has read something and has no bracket open
      rw [if_pos hbreak]
      cases last with
      | none =>
          cases j with
          | zero =>
              simp only [Except.ok.injEq] at hstep
              subst hstep
              exact ⟨⟨k, none⟩, by cases k <;> rfl, rfl, h⟩
          | succ j =>
              simp only [Except.ok.injEq] at hstep
              subst hstep
              exact ⟨⟨k, none⟩, by cases k <;> rfl, rfl, h⟩
      | some stop =>
          cases j with
          | zero => simp at hstep
          | succ j =>
              simp only [Except.ok.injEq] at hstep
              subst hstep
              cases k with
              | zero => omega
              | succ k => exact ⟨⟨k + 1, some stop⟩, rfl, rfl, h⟩
  · next hbreak =>
      rw [if_neg hbreak]
      split at hstep
      · next hblank =>
          simp only [Except.ok.injEq] at hstep
          subst hstep
          rw [if_pos hblank]
          exact ⟨⟨k, last⟩, rfl, rfl, h⟩
      · next hblank =>
          rw [if_neg hblank]
          split at hstep
          · simp at hstep
          · next hcloser =>
              simp only [Except.ok.injEq] at hstep
              subst hstep
              have hmore : ¬(decide (k = 0) && x.cell.isCloser) = true := by
                simp only [Bool.and_eq_true, decide_eq_true_eq, not_and] at hcloser ⊢
                intro hk
                exact hcloser (by omega)
              rw [if_neg hmore]
              exact ⟨_, rfl, rfl, bracketStep_mono h x.cell⟩

/-- A walk that has read something stops at the end of what it has read. -/
theorem eq_of_step_error {depth : Nat} {l stop : Position} {x : Spot}
    (h : step ⟨depth, some l⟩ x = .error stop) : stop = l := by
  rcases step_cases ⟨depth, some l⟩ x with
    ⟨l', hstate, -, hstep⟩ | ⟨-, hstep⟩ | ⟨-, -, -, hstep⟩ | ⟨-, -, hstep⟩
  · rw [hstep] at h
    simp only [ArrowState.mk.injEq, Option.some.injEq] at hstate
    rw [hstate.2]
    exact (Except.error.inj h).symm
  · simp [hstep] at h
  · rw [hstep] at h
    exact (Except.error.inj h).symm
  · simp [hstep] at h

/-- Of two walks that have read the same, the one with fewer open brackets ends first. -/
theorem finish_mono {j k : Nat} {l finish : Position} {xs : List Spot} (h : j ≤ k)
    (hxs : xs.Pairwise fun x y => x.position < y.position) (hl : ∀ x ∈ xs, l ≤ x.position) :
    ArrowState.finish finish (run ⟨j, some l⟩ xs) ≤
      ArrowState.finish finish (run ⟨k, some l⟩ xs) := by
  induction xs generalizing j k l with
  | nil => exact le_refl l
  | cons x rest ih =>
      cases hstep : step ⟨j, some l⟩ x with
      | error stop =>
          have hstop := eq_of_step_error hstep
          simp only [run, hstep, ArrowState.finish, hstop]
          exact @le_finish ⟨k, some l⟩ (x :: rest) l finish ⟨l, rfl, le_refl l⟩ hl
      | ok next =>
          obtain ⟨more, hmore, hlast, hdepth⟩ := step_mono h hstep
          obtain ⟨hx, hrest⟩ := List.pairwise_cons.1 hxs
          obtain ⟨depth, last⟩ := next
          obtain ⟨depth', last'⟩ := more
          simp only at hlast hdepth
          subst hlast
          simp only [run, hstep, hmore]
          -- what was read is as before, or ends with the spot
          rcases step_cases ⟨j, some l⟩ x with
            ⟨_, -, -, hs⟩ | ⟨-, hs⟩ | ⟨-, -, -, hs⟩ | ⟨-, -, hs⟩
          · simp [hs] at hstep
          · rw [hs] at hstep
            simp only [Except.ok.injEq, ArrowState.mk.injEq] at hstep
            obtain ⟨-, rfl⟩ := hstep
            exact ih hdepth hrest fun y hy => hl y (List.mem_cons_of_mem x hy)
          · simp [hs] at hstep
          · rw [hs] at hstep
            simp only [Except.ok.injEq, ArrowState.mk.injEq] at hstep
            obtain ⟨-, rfl⟩ := hstep
            exact ih hdepth hrest fun y hy => Position.next_le_iff.2 (hx y hy)

/--
A walk that starts behind what another one has read ends first, unless the other one ends where the
first starts or before.
-/
theorem finish_le_of_later {j k : Nat} {l q finish : Position} {xs : List Spot} (h : j ≤ k)
    (hlq : l ≤ q) (hxs : xs.Pairwise fun x y => x.position < y.position)
    (hq : ∀ x ∈ xs, q ≤ x.position) :
    ArrowState.finish finish (run ⟨k, some l⟩ xs) ≤ q ∨
      ArrowState.finish finish (run ⟨j, none⟩ xs) ≤
        ArrowState.finish finish (run ⟨k, some l⟩ xs) := by
  induction xs generalizing j k with
  | nil => exact Or.inl hlq
  | cons x rest ih =>
      obtain ⟨hx, hrest⟩ := List.pairwise_cons.1 hxs
      have hqrest : ∀ y ∈ rest, q ≤ y.position := fun y hy => hq y (List.mem_cons_of_mem x hy)
      have hxrest : ∀ y ∈ rest, x.position.next ≤ y.position := fun y hy =>
        Position.next_le_iff.2 (hx y hy)
      simp only [run]
      rcases step_cases ⟨k, some l⟩ x with
        ⟨stop, hstate, -, hk⟩ | ⟨hquiet, hk⟩ | ⟨-, -, -, hk⟩ | ⟨hquiet, -, hk⟩
      · simp only [ArrowState.mk.injEq, Option.some.injEq] at hstate
        rw [hk]
        exact Or.inl (by rw [← hstate.2]; exact hlq)
      · -- the spot is passed by, and the other walk passes it by as well
        rw [hk]
        rcases step_cases ⟨j, none⟩ x with
          ⟨stop, hstate, -, -⟩ | ⟨-, hj⟩ | ⟨hnot, -⟩ | ⟨hnot, -⟩
        · simp at hstate
        · rw [hj]
          exact ih h hrest hqrest
        · rw [hquiet] at hnot
          exact Bool.noConfusion hnot
        · rw [hquiet] at hnot
          exact Bool.noConfusion hnot
      · rw [hk]
        exact Or.inl hlq
      · -- the spot is read: from here on both walks have read the same
        rw [hk]
        rcases step_cases ⟨j, none⟩ x with
          ⟨stop, hstate, -, -⟩ | ⟨hnot, -⟩ | ⟨-, -, -, hj⟩ | ⟨-, -, hj⟩
        · simp at hstate
        · rw [hquiet] at hnot
          exact Bool.noConfusion hnot
        · rw [hj]
          refine Or.inr (le_finish ⟨x.position.next, rfl, le_of_lt x.position.lt_next⟩ ?_)
          intro y hy
          exact le_of_lt (hx y hy)
        · rw [hj]
          exact Or.inr (finish_mono (bracketStep_mono h x.cell) hrest hxrest)

end ArrowState

end ScriptOutline
