/-
**Nested brackets.**

The brackets of a text are nested if each closing bracket goes with the last opening one that is
still open, and is of its kind.  A machine with a stack of open brackets decides this; the grammar
of nested runs is what proofs go by.  Between an opening brace and the brace that goes with it
there is a nested run, and a walk after an arrow passes over it.

Main definitions:

* `closesAll`, `Source.IsNested` — the decision by a stack of open brackets;
* `Nested` — the grammar of nested runs of spots.

Main results:

* `nested_of_closesAll` — what the machine accepts is a nested run;
* `Nested.balance_eq_zero`, `Nested.balance_nonneg` — a nested run closes what it opens, and no
  start of it closes more;
* `pairBraces_append_of_nested` — brace pairs do not cross the ends of a nested run;
* `Source.exists_block` — the inside of a block is a nested run;
* `ArrowState.run_pair` — a walk passes over a pair of brackets.
-/

import ScriptOutline.Proofs.ArrowWalk
import ScriptOutline.Proofs.BracePairs

set_option relaxedAutoImplicit false
set_option autoImplicit false

namespace ScriptOutline

/-! ### The decision -/

/-- Whether two brackets are the two ends of one kind. -/
def closes (opener closer : Char) : Bool :=
  (opener = '(' && closer = ')') || (opener = '[' && closer = ']') ||
    (opener = '{' && closer = '}')

/-- Whether the brackets among spots close what is pending, last one first, and what they open. -/
def closesAll (pending : List Char) : List Spot → Bool
  | [] => pending.isEmpty
  | x :: rest =>
    if x.cell.isOpener then closesAll (x.cell.char :: pending) rest
    else if x.cell.isCloser then
      match pending with
      | [] => false
      | opener :: pending => closes opener x.cell.char && closesAll pending rest
    else closesAll pending rest

/-- The code brackets of a text are properly nested, kind by kind. -/
def Source.IsNested (s : Source) : Prop :=
  closesAll [] s.spots = true

instance (s : Source) : Decidable s.IsNested :=
  inferInstanceAs (Decidable (closesAll [] s.spots = true))

/-! ### The grammar -/

/-- A run of spots in which every bracket has its other end. -/
inductive Nested : List Spot → Prop where
  | nil : Nested []
  | cons {x : Spot} {rest : List Spot} (hx : x.cell.isBracket = false) (hrest : Nested rest) :
      Nested (x :: rest)
  | pair {o c : Spot} {inner rest : List Spot} (ho : o.cell.isOpener = true)
      (hc : c.cell.isCloser = true) (hkind : closes o.cell.char c.cell.char = true)
      (hinner : Nested inner) (hrest : Nested rest) : Nested (o :: (inner ++ c :: rest))

/-- Nested runs between the closing brackets of what is pending. -/
def NestedFrom : List Char → List Spot → Prop
  | [], xs => Nested xs
  | opener :: pending, xs => ∃ inner c rest, xs = inner ++ c :: rest ∧ Nested inner ∧
      c.cell.isCloser = true ∧ closes opener c.cell.char = true ∧ NestedFrom pending rest

theorem NestedFrom.cons {pending : List Char} {x : Spot} {rest : List Spot}
    (hx : x.cell.isBracket = false) (h : NestedFrom pending rest) :
    NestedFrom pending (x :: rest) := by
  cases pending with
  | nil => exact Nested.cons hx h
  | cons opener pending =>
      obtain ⟨inner, c, after, rfl, hinner, hc, hkind, hafter⟩ := h
      exact ⟨x :: inner, c, after, rfl, Nested.cons hx hinner, hc, hkind, hafter⟩

theorem NestedFrom.pair {pending : List Char} {o c : Spot} {inner rest : List Spot}
    (ho : o.cell.isOpener = true) (hc : c.cell.isCloser = true)
    (hkind : closes o.cell.char c.cell.char = true) (hinner : Nested inner)
    (h : NestedFrom pending rest) : NestedFrom pending (o :: (inner ++ c :: rest)) := by
  cases pending with
  | nil => exact Nested.pair ho hc hkind hinner h
  | cons opener pending =>
      obtain ⟨inner', c', after, rfl, hinner', hc', hkind', hafter⟩ := h
      exact ⟨o :: (inner ++ c :: inner'), c', after, by simp,
        Nested.pair ho hc hkind hinner hinner', hc', hkind', hafter⟩

theorem nestedFrom_of_closesAll {pending : List Char} {xs : List Spot}
    (h : closesAll pending xs = true) : NestedFrom pending xs := by
  induction xs generalizing pending with
  | nil =>
      cases pending with
      | nil => exact Nested.nil
      | cons opener pending => simp [closesAll] at h
  | cons x rest ih =>
      simp only [closesAll] at h
      split at h
      · next ho =>
          -- the bracket that is opened here is the first one to be closed behind it
          obtain ⟨inner, c, after, rfl, hinner, hc, hkind, hafter⟩ := ih h
          exact NestedFrom.pair ho hc hkind hinner hafter
      · next ho =>
          split at h
          · next hc =>
              cases pending with
              | nil => simp at h
              | cons opener pending =>
                  simp only [Bool.and_eq_true] at h
                  exact ⟨[], x, rest, rfl, Nested.nil, hc, h.1, ih h.2⟩
          · next hc =>
              exact NestedFrom.cons (by simp [Cell.isBracket, ho, hc]) (ih h)

/-- What the machine accepts is a nested run. -/
theorem nested_of_closesAll {xs : List Spot} (h : closesAll [] xs = true) : Nested xs :=
  nestedFrom_of_closesAll h

namespace Nested

/-- A nested run closes as many brackets as it opens. -/
theorem balance_eq_zero {xs : List Spot} (h : Nested xs) : bracketBalance xs = 0 := by
  induction h with
  | nil => rfl
  | cons hx hrest ih =>
      rw [bracketBalance_cons, bracketBalance_not_bracket hx, ih]
      rfl
  | @pair o c inner rest ho hc hkind hinner hrest ihinner ihrest =>
      rw [bracketBalance_cons, bracketBalance_append, bracketBalance_cons c,
        bracketBalance_opener ho, bracketBalance_closer hc, ihinner, ihrest]
      rfl

/-- No start of a nested run closes more brackets than it opens. -/
theorem balance_nonneg {xs u v : List Spot} (h : Nested xs) (hxs : xs = u ++ v) :
    0 ≤ bracketBalance u := by
  induction h generalizing u v with
  | nil =>
      rw [(List.append_eq_nil_iff.1 hxs.symm).1]
      exact Int.le_refl 0
  | @cons x rest hx hrest ih =>
      cases u with
      | nil => exact Int.le_refl 0
      | cons y u =>
          simp only [List.cons_append, List.cons.injEq] at hxs
          obtain ⟨rfl, hxs⟩ := hxs
          rw [bracketBalance_cons, bracketBalance_not_bracket hx]
          have hu := ih hxs
          omega
  | @pair o c inner rest ho hc hkind hinner hrest ihinner ihrest =>
      cases u with
      | nil => exact Int.le_refl 0
      | cons y u =>
          simp only [List.cons_append, List.cons.injEq] at hxs
          obtain ⟨rfl, hxs⟩ := hxs
          rw [bracketBalance_cons, bracketBalance_opener ho]
          -- the start reaches behind what is inside, or ends in it with one bracket open
          rcases List.append_eq_append_iff.1 hxs with ⟨w, hu, hw⟩ | ⟨w, hu, hw⟩
          · cases w with
            | nil =>
                rw [hu, List.append_nil, hinner.balance_eq_zero]
                omega
            | cons z w =>
                simp only [List.cons_append, List.cons.injEq] at hw
                obtain ⟨rfl, hw⟩ := hw
                have hrest := ihrest hw
                rw [hu, bracketBalance_append, bracketBalance_cons, hinner.balance_eq_zero,
                  bracketBalance_closer hc]
                omega
          · have hinner := ihinner hu
            omega

end Nested

/-! ### Brace pairs -/

/-- A cell that is no bracket is no brace. -/
theorem Cell.isCodeChar_of_not_bracket {c : Cell} (h : c.isBracket = false) :
    c.isCodeChar '{' = false ∧ c.isCodeChar '}' = false := by
  constructor
  · cases hc : c.isCodeChar '{' with
    | false => rfl
    | true =>
        rw [Cell.isCodeChar_iff.1 hc] at h
        exact absurd h (by decide)
  · cases hc : c.isCodeChar '}' with
    | false => rfl
    | true =>
        rw [Cell.isCodeChar_iff.1 hc] at h
        exact absurd h (by decide)

theorem Cell.isCode_of_isBracket {c : Cell} (h : c.isBracket = true) : c.isCode = true := by
  simp [Cell.isCode, (Cell.isBracket_spec h).1]

/-- The two ends of a kind are both braces or both none. -/
theorem Cell.isCodeChar_of_closes {o c : Cell} (ho : o.isOpener = true) (hc : c.isCloser = true)
    (hkind : closes o.char c.char = true) :
    (o.isCodeChar '{' = true ∧ c.isCodeChar '}' = true) ∨
      (o.isCodeChar '{' = false ∧ o.isCodeChar '}' = false ∧ c.isCodeChar '{' = false ∧
        c.isCodeChar '}' = false) := by
  have hoCode : o.isCode = true := Cell.isCode_of_isBracket (by simp [Cell.isBracket, ho])
  have hcCode : c.isCode = true := Cell.isCode_of_isBracket (by simp [Cell.isBracket, hc])
  simp only [closes, Bool.or_eq_true, Bool.and_eq_true, decide_eq_true_eq] at hkind
  rcases hkind with (⟨ho, hc⟩ | ⟨ho, hc⟩) | ⟨ho, hc⟩
  · exact Or.inr (by simp [Cell.isCodeChar, ho, hc])
  · exact Or.inr (by simp [Cell.isCodeChar, ho, hc])
  · exact Or.inl (by simp [Cell.isCodeChar, ho, hc, hoCode, hcCode])

/-- The brace pairs of a pair of brackets: those inside, the pair itself, and those behind. -/
theorem pairBraces_pair {o c : Spot} {inner : List Spot} (ho : o.cell.isOpener = true)
    (hc : c.cell.isCloser = true) (hkind : closes o.cell.char c.cell.char = true)
    (hinner : ∀ pending ys,
      pairBraces pending (inner ++ ys) = pairBraces [] inner ++ pairBraces pending ys)
    (pending : List Position) (rest : List Spot) :
    pairBraces pending (o :: (inner ++ c :: rest)) =
      pairBraces [] inner ++ ((if o.cell.isCodeChar '{' then [(o.position, c.position)] else []) ++
        pairBraces pending rest) := by
  rcases Cell.isCodeChar_of_closes ho hc hkind with ⟨ho, hc⟩ | ⟨ho, ho', hc, hc'⟩
  · rw [pairBraces_open ho, hinner, pairBraces_close hc, if_pos ho]
    rfl
  · rw [pairBraces_other ho ho', hinner, pairBraces_other hc hc', ho]
    rfl

/-- Brace pairs do not cross the ends of a nested run. -/
theorem pairBraces_append_of_nested {xs : List Spot} (h : Nested xs) (pending : List Position)
    (ys : List Spot) :
    pairBraces pending (xs ++ ys) = pairBraces [] xs ++ pairBraces pending ys := by
  induction h generalizing pending ys with
  | nil => rfl
  | @cons x rest hx hrest ih =>
      obtain ⟨hopen, hclose⟩ := Cell.isCodeChar_of_not_bracket hx
      rw [List.cons_append, pairBraces_other hopen hclose, pairBraces_other hopen hclose, ih]
  | @pair o c inner rest ho hc hkind hinner hrest ihinner ihrest =>
      rw [List.cons_append, List.append_assoc, List.cons_append,
        pairBraces_pair ho hc hkind ihinner, pairBraces_pair ho hc hkind ihinner, ihrest]
      simp only [List.append_assoc]

/-- An opening brace of a nested run has its other end, with a nested run between the two. -/
theorem Nested.exists_block {xs : List Spot} (h : Nested xs) {o : Spot} (hmem : o ∈ xs)
    (ho : o.cell.isCodeChar '{' = true) :
    ∃ before inner c after, xs = before ++ o :: (inner ++ c :: after) ∧ Nested inner ∧
      c.cell.isCodeChar '}' = true ∧ (o.position, c.position) ∈ pairBraces [] xs ∧
        ∀ q ∈ pairBraces [] inner, q ∈ pairBraces [] xs := by
  induction h with
  | nil => simp at hmem
  | @cons x rest hx hrest ih =>
      obtain ⟨hopen, hclose⟩ := Cell.isCodeChar_of_not_bracket hx
      rcases List.mem_cons.1 hmem with rfl | hmem
      · rw [ho] at hopen
        exact Bool.noConfusion hopen
      · obtain ⟨before, inner, c, after, rfl, hinner, hc, hpair, hsubset⟩ := ih hmem
        rw [pairBraces_other hopen hclose]
        exact ⟨x :: before, inner, c, after, rfl, hinner, hc, hpair, hsubset⟩
  | @pair o' c' inner' rest ho' hc' hkind hinner' hrest ihinner ihrest =>
      rw [pairBraces_pair ho' hc' hkind (pairBraces_append_of_nested hinner')]
      rcases List.mem_cons.1 hmem with rfl | hmem
      · rcases Cell.isCodeChar_of_closes ho' hc' hkind with ⟨-, hc⟩ | ⟨hnot, -⟩
        · refine ⟨[], inner', c', rest, rfl, hinner', hc, by simp [ho], ?_⟩
          intro q hq
          exact List.mem_append_left _ hq
        · rw [ho] at hnot
          exact Bool.noConfusion hnot
      · rcases List.mem_append.1 hmem with hmem | hmem
        · obtain ⟨before, inner, c, after, rfl, hinner, hc, hpair, hsubset⟩ := ihinner hmem
          refine ⟨o' :: before, inner, c, after ++ c' :: rest, by simp, hinner, hc,
            List.mem_append_left _ hpair, ?_⟩
          intro q hq
          exact List.mem_append_left _ (hsubset q hq)
        · rcases List.mem_cons.1 hmem with rfl | hmem
          · -- the other end of the pair is no opening brace
            rw [Cell.isCodeChar_iff.1 ho] at hc'
            exact absurd hc' (by decide)
          · obtain ⟨before, inner, c, after, rfl, hinner, hc, hpair, hsubset⟩ := ihrest hmem
            refine ⟨o' :: (inner' ++ c' :: before), inner, c, after, by simp, hinner, hc,
              List.mem_append_right _ (List.mem_append_right _ hpair), ?_⟩
            intro q hq
            exact List.mem_append_right _ (List.mem_append_right _ (hsubset q hq))

/-! ### Blocks -/

namespace Source

/-- The inside of a block is a nested run, and so are those of the blocks in it. -/
theorem exists_block {s : Source} (hs : s.IsPaired) (hn : s.IsNested) {p : Position}
    (h : ⟨p, ⟨'{', .code⟩⟩ ∈ s.spots) :
    ∃ before inner c after,
      s.spots = before ++ ⟨p, ⟨'{', .code⟩⟩ :: (inner ++ ⟨c, ⟨'}', .code⟩⟩ :: after) ∧
        Nested inner ∧ s.matchingBrace? p = some c ∧
          ∀ q ∈ pairBraces [] inner, s.matchingBrace? q.1 = some q.2 := by
  obtain ⟨before, inner, ⟨c, cell⟩, after, hspots, hinner, hc, hpair, hsubset⟩ :=
    (nested_of_closesAll hn).exists_block h (Cell.isCodeChar_iff.2 rfl)
  obtain rfl := Cell.isCodeChar_iff.1 hc
  exact ⟨before, inner, c, after, hspots, hinner, matchingBrace?_of_mem hs hpair,
    fun q hq => matchingBrace?_of_mem hs (hsubset q hq)⟩

end Source

/-! ### Walks over nested runs -/

namespace ArrowState

/-- A walk passes over a pair of brackets if it passes over what is inside. -/
theorem run_pair_of_run {state next : ArrowState} {o c : Spot} {inner : List Spot}
    (ho : o.cell.isOpener = true) (hc : c.cell.isCloser = true) (hinner : Nested inner)
    (hrun : run ⟨state.depth + 1, some o.position.next⟩ inner = .ok next) (rest : List Spot) :
    state.run (o :: (inner ++ c :: rest)) = run ⟨state.depth, some c.position.next⟩ rest := by
  have hdepth : next.depth = state.depth + 1 := by
    have hbalance := run_balance hrun
    rw [hinner.balance_eq_zero] at hbalance
    simp only at hbalance
    omega
  have hopen : state.step o = .ok ⟨bracketStep state.depth o.cell, some o.position.next⟩ :=
    step_bracket (by simp [Cell.isBracket, ho]) (by simp [Cell.isCloser_of_isOpener ho])
  have hclose : next.step c = .ok ⟨bracketStep next.depth c.cell, some c.position.next⟩ :=
    step_bracket (by simp [Cell.isBracket, hc]) (fun _ => by omega)
  rw [bracketStep_opener ho] at hopen
  rw [bracketStep_closer hc, hdepth, Nat.add_sub_cancel] at hclose
  simp only [run, hopen, run_append, hrun, hclose]

/-- Inside of brackets a walk passes over a nested run. -/
theorem run_nested {xs : List Spot} (h : Nested xs) {state : ArrowState} (hpos : 0 < state.depth) :
    ∃ next, state.run xs = .ok next := by
  induction h generalizing state with
  | nil => exact ⟨state, rfl⟩
  | @cons x rest hx hrest ih =>
      simp only [run]
      rcases step_cases state x with
        ⟨stop, hstate, -⟩ | ⟨-, hstep⟩ | ⟨-, hzero, -⟩ | ⟨-, -, hstep⟩
      · -- the walk only stops outside of brackets
        rw [hstate] at hpos
        exact absurd hpos (Nat.lt_irrefl 0)
      · rw [hstep]
        exact ih hpos
      · rw [hzero] at hpos
        exact absurd hpos (Nat.lt_irrefl 0)
      · rw [hstep]
        simp only [Cell.isBracket, Bool.or_eq_false_iff] at hx
        exact ih (by simpa [bracketStep, hx.1, hx.2] using hpos)
  | @pair o c inner rest ho hc hkind hinner hrest ihinner ihrest =>
      obtain ⟨next, hrun⟩ :=
        @ihinner ⟨state.depth + 1, some o.position.next⟩ (Nat.succ_pos state.depth)
      rw [run_pair_of_run ho hc hinner hrun]
      exact ihrest hpos

/-- A walk passes over a pair of brackets with a nested run between them. -/
theorem run_pair {state : ArrowState} {o c : Spot} {inner : List Spot}
    (ho : o.cell.isOpener = true) (hc : c.cell.isCloser = true) (hinner : Nested inner)
    (rest : List Spot) :
    state.run (o :: (inner ++ c :: rest)) = run ⟨state.depth, some c.position.next⟩ rest := by
  obtain ⟨next, hrun⟩ :=
    @run_nested inner hinner ⟨state.depth + 1, some o.position.next⟩ (Nat.succ_pos state.depth)
  exact run_pair_of_run ho hc hinner hrun rest

end ArrowState

end ScriptOutline
