/-
**Where the body behind an arrow ends.**

The walk behind an arrow holds a number of open brackets and not which they are.  In a text whose
brackets are nested the number is the height of the stack of brackets that the expression has
opened, so that it is enough: the expression closes what it opens, kind by kind, stops before the
bracket that closes what was open before, and goes on over a line break only inside of its own
brackets.

Main definitions:

* `Source.BracketPair` — two brackets of the code that go together;
* `Source.IsExpression` — a stretch of a text that is an expression, with its ends where they should
  be;
* `wrappedCall` — an expression over several lines, as the argument of a call.

Main results:

* `closesAll_of_nested` — a nested run leaves what is pending;
* `Nested.exists_pair` — a bracket that is still open has its other end further on;
* `ArrowState.run_stack` — the number of open brackets is the height of a stack;
* `ArrowState.exists_stop` — where a walk stops, and what it has read until then;
* `arrow_isExpression` — **a body behind an arrow is an expression of the text**.
-/

import Mathlib.Data.List.Induction
import ScriptOutline.Proofs.RecordPlaces

set_option relaxedAutoImplicit false
set_option autoImplicit false

namespace ScriptOutline

/-! ### Brackets and expressions -/

namespace Source

/--
Two brackets of the code go together: they are the two ends of one kind, and the brackets between
them are nested.
-/
def BracketPair (s : Source) (p q : Position) : Prop :=
  ∃ opener closer, ⟨p, ⟨opener, .code⟩⟩ ∈ s.spots ∧ ⟨q, ⟨closer, .code⟩⟩ ∈ s.spots ∧ p < q ∧
    closes opener closer = true ∧ closesAll [] (s.spotsWithin p.next q) = true

/--
The stretch of a text from `start` up to `stop` is an expression: it closes what it opens, it ends
before what closes brackets that were opened before it, it goes on over a line break only inside of
its brackets, and it ends with its last character.
-/
structure IsExpression (s : Source) (start stop : Position) : Prop where
  /-- The brackets in it are nested, kind by kind. -/
  nested : closesAll [] (s.spotsWithin start stop) = true
  /-- It does not reach behind the end of a pair that is open where it starts. -/
  inside : ∀ p q, s.BracketPair p q → p < start → start ≤ q → stop ≤ q
  /-- A line break behind its first character lies in a pair of brackets of its own. -/
  wrapped : ∀ x ∈ s.spotsWithin start stop, x.isBreak = true →
    (∃ y ∈ s.spotsWithin start stop, y.position < x.position ∧ y.isQuiet = false) →
      ∃ p q, s.BracketPair p q ∧ start ≤ p ∧ p < x.position ∧ x.position < q
  /-- Unless it is empty, what stands right before its end is no blank and no comment. -/
  tight : (∃ y ∈ s.spotsWithin start stop, y.isQuiet = false) →
    ∃ p c, ⟨p, c⟩ ∈ s.spotsWithin start stop ∧ p.next = stop ∧ isBlank c.char = false ∧
      c.isComment = false

end Source

/-! ### Nested runs -/

/-- A nested run leaves what is pending. -/
theorem closesAll_of_nested {xs : List Spot} (h : Nested xs) (pending : List Char)
    (ys : List Spot) : closesAll pending (xs ++ ys) = closesAll pending ys := by
  induction h generalizing pending ys with
  | nil => rfl
  | @cons x rest hx hrest ih =>
      simp only [Cell.isBracket, Bool.or_eq_false_iff] at hx
      simp only [List.cons_append, closesAll, hx, Bool.false_eq_true, if_false, ih]
  | @pair o c inner rest ho hc hkind hinner hrest ihinner ihrest =>
      have hopen := Cell.isOpener_of_isCloser hc
      simp only [List.cons_append, List.append_assoc, closesAll, ho, if_true, ihinner, hopen, hc,
        Bool.false_eq_true, if_false, hkind, Bool.true_and, ihrest]

/-- What closes what is pending goes on to close what is pending further on. -/
theorem exists_pending {pending : List Char} {xs ys : List Spot}
    (h : closesAll pending (xs ++ ys) = true) : ∃ pending', closesAll pending' ys = true := by
  induction xs generalizing pending with
  | nil => exact ⟨pending, h⟩
  | cons x xs ih =>
      simp only [List.cons_append, closesAll] at h
      split at h
      · exact ih h
      · split at h
        · cases pending with
          | nil => simp at h
          | cons opener pending =>
              simp only [Bool.and_eq_true] at h
              exact ih h.2
        · exact ih h

/--
Where a start of a nested run has brackets open, the last one that is still open has its other end
behind that start, with a nested run between the two.
-/
theorem Nested.exists_pair {xs u v : List Spot} (h : Nested xs) (hxs : xs = u ++ v)
    (hpos : 0 < bracketBalance u) :
    ∃ before o left right c after, u = before ++ o :: left ∧ v = right ++ c :: after ∧
      o.cell.isOpener = true ∧ c.cell.isCloser = true ∧ closes o.cell.char c.cell.char = true ∧
        Nested (left ++ right) ∧ bracketBalance left = 0 := by
  induction h generalizing u v with
  | nil =>
      rw [(List.append_eq_nil_iff.1 hxs.symm).1] at hpos
      exact absurd hpos (by decide)
  | @cons x rest hx hrest ih =>
      cases u with
      | nil => exact absurd hpos (by decide)
      | cons y u =>
          simp only [List.cons_append, List.cons.injEq] at hxs
          obtain ⟨rfl, hxs⟩ := hxs
          rw [bracketBalance_cons, bracketBalance_not_bracket hx, Int.zero_add] at hpos
          obtain ⟨before, o, left, right, c, after, rfl, hv, hpair⟩ := ih hxs hpos
          exact ⟨x :: before, o, left, right, c, after, rfl, hv, hpair⟩
  | @pair o c inner rest ho hc hkind hinner hrest ihinner ihrest =>
      cases u with
      | nil => exact absurd hpos (by decide)
      | cons y u =>
          simp only [List.cons_append, List.cons.injEq] at hxs
          obtain ⟨rfl, hxs⟩ := hxs
          rw [bracketBalance_cons, bracketBalance_opener ho] at hpos
          -- a start within the pair has this pair around its end, or a pair further inside
          have within {w : List Spot} (hu : inner = u ++ w) (hv : v = w ++ c :: rest) :
              ∃ before o' left right c' after, o :: u = before ++ o' :: left ∧
                v = right ++ c' :: after ∧ o'.cell.isOpener = true ∧ c'.cell.isCloser = true ∧
                closes o'.cell.char c'.cell.char = true ∧ Nested (left ++ right) ∧
                bracketBalance left = 0 := by
            rcases Int.lt_or_eq_of_le (hinner.balance_nonneg hu) with hlt | hzero
            · obtain ⟨before, o', left, right, c', after, rfl, rfl, hpair⟩ := ihinner hu hlt
              exact ⟨o :: before, o', left, right, c', after ++ c :: rest, rfl, by simp [hv], hpair⟩
            · exact ⟨[], o, u, w, c, rest, rfl, hv, ho, hc, hkind, hu ▸ hinner, hzero.symm⟩
          rcases List.append_eq_append_iff.1 hxs with ⟨w, hu, hw⟩ | ⟨w, hu, hw⟩
          · cases w with
            | nil =>
                rw [List.append_nil] at hu
                exact within (w := []) (by rw [hu, List.append_nil]) hw.symm
            | cons z w =>
                simp only [List.cons_append, List.cons.injEq] at hw
                obtain ⟨rfl, hw⟩ := hw
                rw [hu, bracketBalance_append, bracketBalance_cons c, hinner.balance_eq_zero,
                  bracketBalance_closer hc] at hpos
                obtain ⟨before, o', left, right, c', after, rfl, hv, hpair⟩ :=
                  ihrest hw (by omega)
                exact ⟨o :: (inner ++ c :: before), o', left, right, c', after, by simp [hu], hv,
                  hpair⟩
          · exact within hu hw

/-! ### The walk and the stack -/

namespace ArrowState

/--
Where brackets are nested, the number of open brackets is the height of the stack of those that the
walk has read.
-/
theorem run_stack {stack pending : List Char} {last : Option Position} {u v : List Spot}
    {next : ArrowState} (h : closesAll (stack ++ pending) (u ++ v) = true)
    (hrun : run ⟨stack.length, last⟩ u = .ok next) :
    ∃ stack', stack'.length = next.depth ∧ closesAll (stack' ++ pending) v = true ∧
      ∀ w, closesAll stack (u ++ w) = closesAll stack' w := by
  induction u generalizing stack last with
  | nil =>
      simp only [run, Except.ok.injEq] at hrun
      subst hrun
      exact ⟨stack, rfl, h, fun w => rfl⟩
  | cons x u ih =>
      simp only [run] at hrun
      rcases step_cases ⟨stack.length, last⟩ x with
        ⟨stop, -, -, hstep⟩ | ⟨hquiet, hstep⟩ | ⟨-, -, -, hstep⟩ | ⟨-, hcloser, hstep⟩
      · simp [hstep] at hrun
      · rw [hstep] at hrun
        have hx := Spot.isBracket_of_isQuiet hquiet
        simp only [Cell.isBracket, Bool.or_eq_false_iff] at hx
        simp only [List.cons_append, closesAll, hx, Bool.false_eq_true, if_false] at h ⊢
        exact ih h hrun
      · simp [hstep] at hrun
      · rw [hstep] at hrun
        simp only [List.cons_append, closesAll] at h ⊢
        cases ho : x.cell.isOpener with
        | true =>
            rw [bracketStep_opener ho] at hrun
            simp only [ho, if_true] at h ⊢
            exact @ih (x.cell.char :: stack) _ h hrun
        | false =>
            cases hc : x.cell.isCloser with
            | true =>
                -- a closing bracket is only read where the stack is not empty
                obtain ⟨opener, stack, rfl⟩ :=
                  List.exists_cons_of_ne_nil (List.ne_nil_of_length_pos (hcloser hc))
                rw [bracketStep_closer hc] at hrun
                simp only [ho, hc, Bool.false_eq_true, if_false, if_true, List.cons_append,
                  Bool.and_eq_true] at h ⊢
                obtain ⟨stack', hlength, hpending, hstack⟩ := ih h.2 hrun
                refine ⟨stack', hlength, hpending, fun w => ?_⟩
                rw [h.1, Bool.true_and, hstack]
            | false =>
                simp only [bracketStep, ho, hc, Bool.false_eq_true, if_false] at h hrun ⊢
                exact ih h hrun

/--
What a walk has read ends with a character that it does not pass by, and it knows no more behind
that character than right after it.
-/
theorem last_of_run {depth : Nat} {u : List Spot} {next : ArrowState}
    (h : run ⟨depth, none⟩ u = .ok next) :
    (next.last = none ∧ ∀ x ∈ u, x.isQuiet = true) ∨
      ∃ front x back, u = front ++ x :: back ∧ x.isQuiet = false ∧
        next.last = some x.position.next ∧ run ⟨depth, none⟩ (front ++ [x]) = .ok next := by
  induction u using List.reverseRecOn generalizing next with
  | nil =>
      simp only [run, Except.ok.injEq] at h
      subst h
      exact Or.inl ⟨rfl, by simp⟩
  | append_singleton u y ih =>
      rw [run_append] at h
      cases hu : run ⟨depth, none⟩ u with
      | error stop => simp [hu] at h
      | ok state =>
          simp only [hu, run] at h
          rcases step_cases state y with
            ⟨stop, -, -, hstep⟩ | ⟨hquiet, hstep⟩ | ⟨-, -, -, hstep⟩ | ⟨hink, -, hstep⟩
          · simp [hstep] at h
          · simp only [hstep, Except.ok.injEq] at h
            subst h
            rcases ih hu with ⟨hnone, hall⟩ | ⟨front, x, back, rfl, hx, hlast, hread⟩
            · refine Or.inl ⟨hnone, fun x hx => ?_⟩
              rcases List.mem_append.1 hx with hx | hx
              · exact hall x hx
              · rw [List.mem_singleton.1 hx]
                exact hquiet
            · exact Or.inr ⟨front, x, back ++ [y], by simp, hx, hlast, hread⟩
          · simp [hstep] at h
          · simp only [hstep, Except.ok.injEq] at h
            subst h
            exact Or.inr ⟨u, y, [], rfl, hink, rfl, by simp [run_append, hu, run, hstep]⟩

/-- A walk that has read something goes on over a line break only inside of brackets. -/
theorem depth_pos_of_break {state next : ArrowState} {x : Spot} (h : state.step x = .ok next)
    (hbreak : x.isBreak = true) (hlast : state.last ≠ none) : 0 < state.depth := by
  obtain ⟨depth, last⟩ := state
  obtain ⟨l, rfl⟩ := Option.ne_none_iff_exists'.1 hlast
  cases depth with
  | zero => simp [step, hbreak] at h
  | succ depth => exact Nat.succ_pos depth

/-- A walk stops at one of the spots, or comes to their end. -/
theorem run_cases (state : ArrowState) (xs : List Spot) :
    (∃ next, state.run xs = .ok next) ∨
      ∃ u x v next stop, xs = u ++ x :: v ∧ state.run u = .ok next ∧ next.step x = .error stop ∧
        state.run xs = .error stop := by
  induction xs generalizing state with
  | nil => exact Or.inl ⟨state, rfl⟩
  | cons x xs ih =>
      simp only [run]
      cases hstep : state.step x with
      | error stop => exact Or.inr ⟨[], x, xs, state, stop, rfl, rfl, hstep, rfl⟩
      | ok next =>
          rcases ih next with ⟨last, hlast⟩ | ⟨u, y, v, last, stop, rfl, hu, hy, hrun⟩
          · exact Or.inl ⟨last, hlast⟩
          · exact Or.inr ⟨x :: u, y, v, last, stop, rfl, by simp [run, hstep, hu], hy, hrun⟩

/--
Where brackets are nested, a walk stops with all its brackets closed: behind what it has read, or,
if that is nothing, before a bracket that was opened before it or at the end of the text.
-/
theorem exists_stop {pending : List Char} {xs : List Spot} (h : closesAll pending xs = true)
    (finish : Position) :
    ∃ u v next, xs = u ++ v ∧ run ⟨0, none⟩ u = .ok next ∧ next.depth = 0 ∧
      (next.last = some (ArrowState.finish finish (run ⟨0, none⟩ xs)) ∨
        next.last = none ∧ ((v = [] ∧ ArrowState.finish finish (run ⟨0, none⟩ xs) = finish) ∨
          ∃ c rest, v = c :: rest ∧
            ArrowState.finish finish (run ⟨0, none⟩ xs) = c.position)) := by
  rcases run_cases ⟨0, none⟩ xs with ⟨next, hrun⟩ | ⟨u, x, v, next, stop, rfl, hu, hx, hrun⟩
  · rw [← List.append_nil xs] at h
    obtain ⟨stack, hlength, hstack, -⟩ := @run_stack [] pending none xs [] next h hrun
    simp only [closesAll, List.isEmpty_iff, List.append_eq_nil_iff] at hstack
    refine ⟨xs, [], next, by simp, hrun, by simp [← hlength, hstack.1], ?_⟩
    rw [hrun]
    cases hlast : next.last with
    | none => exact Or.inr ⟨rfl, Or.inl ⟨rfl, by simp [ArrowState.finish, hlast]⟩⟩
    | some l => exact Or.inl (by simp [ArrowState.finish, hlast])
  · refine ⟨u, x :: v, next, rfl, hu, ?_⟩
    rw [hrun]
    rcases step_cases next x with
      ⟨stop', hstate, -, hstep⟩ | ⟨-, hstep⟩ | ⟨-, hdepth, -, hstep⟩ | ⟨-, -, hstep⟩
    · rw [hstep, Except.error.injEq] at hx
      exact ⟨by rw [hstate], Or.inl (by rw [hstate, ← hx]; rfl)⟩
    · simp [hstep] at hx
    · rw [hstep, Except.error.injEq] at hx
      refine ⟨hdepth, ?_⟩
      cases hlast : next.last with
      | none => exact Or.inr ⟨rfl, Or.inr ⟨x, v, rfl, by simp [ArrowState.finish, ← hx, hlast]⟩⟩
      | some l => exact Or.inl (by simp [ArrowState.finish, ← hx, hlast])
    · simp [hstep] at hx

end ArrowState

/-! ### Pairs of brackets -/

namespace Source

variable {s : Source}

/-- The characters of a kind of brackets are brackets, if they are code. -/
theorem isBracket_of_closes {opener closer : Char} (h : closes opener closer = true) :
    Cell.isOpener ⟨opener, .code⟩ = true ∧ Cell.isCloser ⟨closer, .code⟩ = true := by
  simp only [closes, Bool.or_eq_true, Bool.and_eq_true, decide_eq_true_eq] at h
  rcases h with (⟨rfl, rfl⟩ | ⟨rfl, rfl⟩) | ⟨rfl, rfl⟩
  · decide
  · decide
  · decide

/-- Two brackets of a kind with a nested run between them go together. -/
theorem bracketPair_of_split {before inner after : List Spot} {o c : Spot}
    (h : s.spots = before ++ o :: (inner ++ c :: after)) (ho : o.cell.isOpener = true)
    (hc : c.cell.isCloser = true) (hkind : closes o.cell.char c.cell.char = true)
    (hinner : Nested inner) : s.BracketPair o.position c.position := by
  have hspot {x : Spot} (hx : x.cell.isBracket = true) :
      (⟨x.position, ⟨x.cell.char, .code⟩⟩ : Spot) = x := by
    rw [← (Cell.isBracket_spec hx).1]
  have hbetween : closesAll [] inner = true := by
    rw [← List.append_nil inner, closesAll_of_nested hinner]
    rfl
  obtain ⟨-, -, -, hlt⟩ := order_of_split h
  refine ⟨o.cell.char, c.cell.char, ?_, ?_, hlt, hkind, ?_⟩
  · rw [hspot (by simp [Cell.isBracket, ho]), h]
    simp
  · rw [hspot (by simp [Cell.isBracket, hc]), h]
    simp
  · rw [spotsWithin_next_eq h]
    exact hbetween

/-- Between two brackets that go together stands a nested run. -/
theorem BracketPair.exists_split {p q : Position} (h : s.BracketPair p q) :
    ∃ before o inner c after, s.spots = before ++ o :: (inner ++ c :: after) ∧
      o.position = p ∧ c.position = q ∧ c.cell.isCloser = true ∧ Nested inner := by
  obtain ⟨opener, closer, ho, hc, hlt, hkind, hbetween⟩ := h
  obtain ⟨before, inner, after, hspots⟩ := Source.exists_split ho hc hlt
  have hinner := spotsWithin_next_eq hspots
  simp only at hinner
  rw [hinner] at hbetween
  exact ⟨before, _, inner, _, after, hspots, rfl, rfl, (isBracket_of_closes hkind).2,
    nested_of_closesAll hbetween⟩

end Source

/-! ### Expressions -/

namespace Source

variable {s : Source} {start : Position}

/-- A stretch without any character that says something is an empty expression. -/
theorem isExpression_of_quiet {stop : Position}
    (hquiet : ∀ x ∈ s.spotsWithin start stop, x.isQuiet = true)
    (hinside : ∀ p q, s.BracketPair p q → p < start → start ≤ q → stop ≤ q) :
    s.IsExpression start stop := by
  have hnone : ¬∃ y ∈ s.spotsWithin start stop, y.isQuiet = false := by
    rintro ⟨y, hy, hink⟩
    rw [hquiet y hy] at hink
    exact Bool.noConfusion hink
  refine ⟨?_, hinside, ?_, fun hink => absurd hink hnone⟩
  · have hnested {xs : List Spot} (hxs : ∀ x ∈ xs, x.isQuiet = true) : Nested xs := by
      induction xs with
      | nil => exact Nested.nil
      | cons x xs ih =>
          obtain ⟨hx, hxs⟩ := List.forall_mem_cons.1 hxs
          exact Nested.cons (Spot.isBracket_of_isQuiet hx) (ih hxs)
    rw [← List.append_nil (s.spotsWithin start stop), closesAll_of_nested (hnested hquiet)]
    rfl
  · rintro x - - ⟨y, hy, -, hink⟩
    exact absurd ⟨y, hy, hink⟩ hnone

section

variable {before u v : List Spot} (hspots : s.spots = before ++ (u ++ v))
  (hfrom : ∀ x ∈ u ++ v, start ≤ x.position)

include hspots hfrom in
/-- No bracket that a walk reads closes one that was opened before the walk. -/
theorem not_closes_of_run {next : ArrowState} (hrun : ArrowState.run ⟨0, none⟩ u = .ok next)
    {p q : Position} (hpair : s.BracketPair p q) (hp : p < start) {x : Spot} (hx : x ∈ u) :
    x.position ≠ q := by
  rintro rfl
  obtain ⟨front, o, inner, c, after, hsplit, rfl, hposition, hc, hinner⟩ := hpair.exists_split
  obtain rfl : c = x :=
    eq_of_position_eq (by rw [hsplit]; simp) (by rw [hspots]; simp [hx]) hposition
  have ho : o ∈ before := by
    have hmem : o ∈ before ++ (u ++ v) := by
      rw [← hspots, hsplit]
      simp
    rcases List.mem_append.1 hmem with hmem | hmem
    · exact hmem
    · exact absurd hp (not_lt_of_ge (hfrom o hmem))
  obtain ⟨left, right, rfl⟩ := List.append_of_mem hx
  obtain ⟨outer, behind, rfl⟩ := List.append_of_mem ho
  -- between the two brackets stands what comes before the walk, and then what it has read
  have hwhole : s.spots = outer ++ o :: ((behind ++ left) ++ c :: (right ++ v)) := by
    rw [hspots]
    simp
  have heq : inner = behind ++ left := by
    rw [← spotsWithin_next_eq hsplit, spotsWithin_next_eq hwhole]
  subst heq
  have hnonneg := hinner.balance_nonneg rfl
  have hzero := hinner.balance_eq_zero
  rw [bracketBalance_append] at hzero
  obtain ⟨stop, hstop⟩ := @ArrowState.run_closer ⟨0, none⟩ left c (by simp only; omega) hc
  rw [List.append_cons, ArrowState.run_append, hstop] at hrun
  simp at hrun

include hspots in
/-- A bracket that a walk has opened and not closed has its other end behind the walk. -/
theorem exists_bracketPair (hn : s.IsNested) (hpos : 0 < bracketBalance u) :
    ∃ o ∈ u, ∃ c ∈ v, c.cell.isCloser = true ∧ s.BracketPair o.position c.position := by
  have hnested := nested_of_closesAll hn
  have hwhole : s.spots = (before ++ u) ++ v := by rw [hspots, List.append_assoc]
  have hnonneg := hnested.balance_nonneg hspots
  obtain ⟨outer, o, left, right, c, after, hu, rfl, ho, hc, hkind, hinner, hzero⟩ :=
    hnested.exists_pair hwhole (by rw [bracketBalance_append]; omega)
  have hsplit : s.spots = outer ++ o :: ((left ++ right) ++ c :: after) := by
    rw [hwhole, hu]
    simp
  refine ⟨o, ?_, c, by simp, hc, bracketPair_of_split hsplit ho hc hkind hinner⟩
  -- were it opened before the walk, the walk would have closed all that it has opened
  rcases List.append_eq_append_iff.1 hu with ⟨w, -, hrest⟩ | ⟨w, -, hrest⟩
  · rw [hrest]
    simp
  · cases w with
    | nil =>
        rw [← List.nil_append u, ← hrest]
        simp
    | cons z w =>
        simp only [List.cons_append, List.cons.injEq] at hrest
        obtain ⟨-, rfl⟩ := hrest
        have hw := hinner.balance_nonneg (List.append_assoc w u right)
        rw [bracketBalance_append] at hzero
        omega

end

/-- A line break that a walk goes over, behind something that it has read, lies in a pair. -/
theorem exists_bracketPair_around {before left right : List Spot} {y : Spot} (hn : s.IsNested)
    (hspots : s.spots = before ++ (left ++ y :: right))
    (hfrom : ∀ x ∈ left ++ y :: right, start ≤ x.position) {next : ArrowState}
    (hrun : ArrowState.run ⟨0, none⟩ (left ++ [y]) = .ok next) (hbreak : y.isBreak = true)
    (hink : ∃ z ∈ left, z.isQuiet = false) :
    ∃ p q, s.BracketPair p q ∧ start ≤ p ∧ p < y.position ∧ y.position < q := by
  obtain ⟨hahead, hbehind⟩ : (∀ x ∈ left, x.position < y.position) ∧
      ∀ x ∈ right, y.position < x.position := by
    have hwhole : s.spots = (before ++ left) ++ y :: right := by rw [hspots, List.append_assoc]
    obtain ⟨hahead, hbehind⟩ := order_of_spot hwhole
    exact ⟨fun x hx => hahead x (List.mem_append_right _ hx), hbehind⟩
  rw [ArrowState.run_append] at hrun
  cases hleft : ArrowState.run ⟨0, none⟩ left with
  | error stop => simp [hleft] at hrun
  | ok state =>
      simp only [hleft, ArrowState.run] at hrun
      have hlast : state.last ≠ none := by
        obtain ⟨z, hz, hzink⟩ := hink
        rcases ArrowState.last_of_run hleft with ⟨-, hall⟩ | ⟨_, _, _, -, -, hsome, -⟩
        · rw [hall z hz] at hzink
          exact Bool.noConfusion hzink
        · simp [hsome]
      have hpos : 0 < state.depth := by
        cases hstep : state.step y with
        | error stop => simp [hstep] at hrun
        | ok after => exact ArrowState.depth_pos_of_break hstep hbreak hlast
      have hbalance := ArrowState.run_balance hleft
      obtain ⟨o, ho, c, hc, hcloser, hpair⟩ :=
        exists_bracketPair hspots hn (by simp only at hbalance; omega)
      refine ⟨o.position, c.position, hpair, hfrom o (List.mem_append_left _ ho), hahead o ho, ?_⟩
      rcases List.mem_cons.1 hc with rfl | hc
      · -- a line break is no bracket
        have hnot := Spot.isBracket_of_isQuiet (x := c) (by simp [Spot.isQuiet, hbreak])
        simp [Cell.isBracket, hcloser] at hnot
      · exact hbehind c hc

/-- What a walk has read, up to the last character that it does not pass by, is an expression. -/
theorem isExpression_of_run {before front rest : List Spot} {x : Spot} (hn : s.IsNested)
    (hspots : s.spots = before ++ ((front ++ [x]) ++ rest))
    (hbefore : ∀ y ∈ before, y.position < start)
    (hfrom : ∀ y ∈ (front ++ [x]) ++ rest, start ≤ y.position) (hx : x.isQuiet = false)
    (hrun : ArrowState.run ⟨0, none⟩ (front ++ [x]) = .ok ⟨0, some x.position.next⟩) :
    s.IsExpression start x.position.next := by
  have hwhole : s.spots = (before ++ front) ++ x :: rest := by
    rw [hspots]
    simp
  obtain ⟨hahead, hbehind⟩ := order_of_spot hwhole
  have hread : ∀ y ∈ front ++ [x], y.position ≤ x.position := by
    intro y hy
    rcases List.mem_append.1 hy with hy | hy
    · exact le_of_lt (hahead y (List.mem_append_right _ hy))
    · rw [List.mem_singleton.1 hy]
  have hwithin : s.spotsWithin start x.position.next = front ++ [x] :=
    spotsWithin_eq hspots hbefore
      (fun y hy => ⟨hfrom y (List.mem_append_left _ hy), Position.lt_next_iff.2 (hread y hy)⟩)
      (fun y hy => Position.next_le_iff.2 (hbehind y hy))
  simp only [Spot.isQuiet, Bool.or_eq_false_iff] at hx
  constructor
  · -- the walk has closed what it has opened, and so the stack of its brackets is empty
    unfold IsNested at hn
    rw [hspots] at hn
    obtain ⟨pending, hpending⟩ := exists_pending hn
    obtain ⟨stack, hlength, -, hstack⟩ :=
      @ArrowState.run_stack [] pending none (front ++ [x]) rest _ hpending hrun
    rw [List.length_eq_zero_iff.1 hlength] at hstack
    rw [hwithin, ← List.append_nil (front ++ [x]), hstack]
    rfl
  · intro p q hpair hp hq
    rw [Position.next_le_iff]
    by_contra hle
    obtain ⟨_, closer, -, hclose, -⟩ := id hpair
    have hmem : (⟨q, ⟨closer, .code⟩⟩ : Spot) ∈ front ++ [x] := by
      rw [← hwithin, mem_spotsWithin]
      exact ⟨hclose, hq, Position.lt_next_iff.2 (not_lt.1 hle)⟩
    exact not_closes_of_run hspots hfrom hrun hpair hp hmem rfl
  · rw [hwithin]
    rintro y hy hbreak ⟨z, hz, hzy, hink⟩
    have hfront : y ∈ front := by
      rcases List.mem_append.1 hy with hy | hy
      · exact hy
      · rw [List.mem_singleton.1 hy, hx.1] at hbreak
        exact Bool.noConfusion hbreak
    obtain ⟨left, right, rfl⟩ := List.append_of_mem hfront
    have hsplit : s.spots = before ++ (left ++ y :: (right ++ x :: rest)) := by
      rw [hwhole]
      simp
    have hleft : z ∈ left := by
      have hbreakSplit : s.spots = (before ++ left) ++ y :: (right ++ x :: rest) := by
        rw [hsplit, List.append_assoc]
      obtain ⟨-, hlater⟩ := order_of_spot hbreakSplit
      simp only [List.append_assoc, List.cons_append, List.mem_append, List.mem_cons] at hz
      rcases hz with hz | rfl | hz | rfl | hz
      · exact hz
      · exact absurd hzy (lt_irrefl _)
      · exact absurd hzy (not_lt_of_gt (hlater z (by simp [hz])))
      · exact absurd hzy (not_lt_of_gt (hlater z (by simp)))
      · simp at hz
    have hprefix : ∃ next, ArrowState.run ⟨0, none⟩ (left ++ [y]) = .ok next := by
      rw [List.append_assoc, List.cons_append, List.append_cons, ArrowState.run_append] at hrun
      cases hcase : ArrowState.run ⟨0, none⟩ (left ++ [y]) with
      | ok next => exact ⟨next, rfl⟩
      | error stop => simp [hcase] at hrun
    obtain ⟨next, hnext⟩ := hprefix
    exact exists_bracketPair_around hn hsplit
      (fun w hw => hfrom w (by simpa using hw)) hnext hbreak ⟨z, hleft, hink⟩
  · rintro -
    refine ⟨x.position, x.cell, ?_, rfl, hx.2.2, hx.2.1⟩
    rw [hwithin]
    simp

/-- Behind an arrow a walk finds an expression, where brackets are nested. -/
theorem isExpression_arrowAt (hn : s.IsNested) (hstart : s.Reaches start) :
    s.IsExpression start ((arrowAt s start).stop s) := by
  obtain ⟨before, hspots, hbefore, hfrom⟩ := spots_eq_append hstart
  obtain ⟨pending, hpending⟩ : ∃ pending, closesAll pending (s.spotsFrom start) = true := by
    unfold IsNested at hn
    rw [hspots] at hn
    exact exists_pending hn
  obtain ⟨u, v, next, hsplit, hrun, hdepth, hstop⟩ :=
    ArrowState.exists_stop hpending s.endPosition
  rw [← stop_arrowAt] at hstop
  rw [hsplit] at hspots hfrom
  rcases ArrowState.last_of_run hrun with ⟨hnone, hquiet⟩ | ⟨front, x, back, rfl, hx, hlast, hread⟩
  · -- nothing is read: what stops the walk is a bracket, or the end of the text
    rw [hnone] at hstop
    simp only [reduceCtorEq, false_or, true_and] at hstop
    have hbehind : ∀ y ∈ v, (arrowAt s start).stop s ≤ y.position := by
      intro y hy
      rcases hstop with ⟨rfl, -⟩ | ⟨c, rest, rfl, heq⟩
      · simp at hy
      · rw [heq]
        rw [← List.append_assoc] at hspots
        rcases List.mem_cons.1 hy with rfl | hy
        · exact le_refl _
        · exact le_of_lt ((order_of_spot hspots).2 y hy)
    have hread {y : Spot} (hy : y ∈ s.spots) (hle : start ≤ y.position) : y ∈ u ∨ y ∈ v := by
      rw [hspots] at hy
      rcases List.mem_append.1 hy with hy | hy
      · exact absurd (hbefore y hy) (not_lt_of_ge hle)
      · exact List.mem_append.1 hy
    refine isExpression_of_quiet ?_ ?_
    · intro y hy
      obtain ⟨hmem, hle, hlt⟩ := mem_spotsWithin.1 hy
      rcases hread hmem hle with hu | hv
      · exact hquiet y hu
      · exact absurd hlt (not_lt_of_ge (hbehind y hv))
    · rintro p q ⟨_, closer, -, hclose, -, hkind, -⟩ - hq
      rcases hread hclose hq with hu | hv
      · have hnot := Spot.isBracket_of_isQuiet (hquiet _ hu)
        rw [Cell.isBracket, (isBracket_of_closes hkind).2, Bool.or_true] at hnot
        exact Bool.noConfusion hnot
      · exact hbehind _ hv
  · rw [hlast, Option.some.injEq] at hstop
    simp only [reduceCtorEq, false_and, or_false] at hstop
    rw [← hstop]
    obtain ⟨depth, last⟩ := next
    simp only at hdepth hlast
    rw [hdepth, hlast] at hread
    rw [List.append_cons, List.append_assoc] at hspots hfrom
    exact isExpression_of_run hn hspots hbefore hfrom hx hread

end Source

/-! ### Declarations -/

/-- Where brackets are nested, the body behind the arrow of a declaration is an expression. -/
theorem arrow_isExpression (text : List Char) (n : Nat) (d : Declaration) (start stop : Position)
    (hn : (Source.scan text).IsNested) (h : declaration? (Source.scan text) n = some d)
    (hbody : d.body = .arrow start stop) :
    start ≤ stop ∧ (Source.scan text).IsExpression start stop := by
  have hat := (declaration?_placed h).1.body_isAt
  rw [hbody] at hat
  rcases hat with ⟨-, hblock⟩ | ⟨hreaches, harrow⟩
  · simp [blockAt] at hblock
  · obtain ⟨-, hle⟩ := reaches_stop_arrowAt hreaches
    have hexpression := Source.isExpression_arrowAt hn hreaches
    rw [← harrow] at hle hexpression
    exact ⟨hle, hexpression⟩

/-- An expression over two lines, with a remark in it, as the argument of a call. -/
def wrappedCall : List Char :=
  "Use(\n  F(x) => G(x,  ; twice\n    [x, x]) )".toList

/-- Its expression ends behind the call of `G`, and not where the line does or where `Use` does. -/
theorem arrow_isExpression_wrappedCall :
    (Source.scan wrappedCall).IsNested ∧
      (declaration? (Source.scan wrappedCall) 1).map (·.body) = some (.arrow ⟨1, 9⟩ ⟨2, 11⟩) ∧
      (Source.scan wrappedCall).IsExpression ⟨1, 9⟩ ⟨2, 11⟩ := by
  have hn : (Source.scan wrappedCall).IsNested := by decide +kernel
  have hbody : (declaration? (Source.scan wrappedCall) 1).map (·.body) =
      some (.arrow ⟨1, 9⟩ ⟨2, 11⟩) := by
    decide +kernel
  obtain ⟨d, hd, harrow⟩ := Option.map_eq_some_iff.1 hbody
  exact ⟨hn, hbody, (arrow_isExpression wrappedCall 1 d ⟨1, 9⟩ ⟨2, 11⟩ hn hd harrow).2⟩

end ScriptOutline
