/-
**Where a list of parameters ends.**

A list of parameters is read up to the first closing bracket, of any of the three kinds, at which
more brackets have been closed than opened since the parenthesis that opens the list.  It is a list
only if that bracket is a parenthesis, and stands in reach.  What stands between the two is kept
character by character, with blanks for comments and line breaks.

Main definitions:

* `Source.ExceedsAt` — at a bracket, more were closed than opened since a position;
* `Spot.listed` — what a character of a list reads as;
* `ClosesUp` — brackets that close each other, and some that were open before.

Main results:

* `cellsToClose?_eq_some_iff` — the walk stops behind brackets that close each other;
* `Source.exceedsAt_first_iff` — the first bracket that closes too much is the one behind them;
* `parameterCells?_exact` — **a list of parameters ends at the first bracket that closes more than
  was opened, and holds all that stands before it**.
-/

import Mathlib.Data.List.Induction
import ScriptOutline.Proofs.DeclarationParts
import ScriptOutline.Proofs.Nesting

set_option relaxedAutoImplicit false
set_option autoImplicit false

namespace ScriptOutline

/-! ### Brackets that close each other -/

/--
The brackets of a run of spots close each other, and the `depth` brackets that were opened just
before: no start of the run closes more than was open, and all of it closes everything.
-/
structure ClosesUp (depth : Nat) (spots : List Spot) : Prop where
  never_below : ∀ start, start <+: spots → 0 ≤ depth + bracketBalance start
  closed : depth + bracketBalance spots = 0

theorem closesUp_nil_iff {depth : Nat} : ClosesUp depth [] ↔ depth = 0 := by
  constructor
  · intro h
    simpa using h.closed
  · rintro rfl
    refine ⟨fun start hstart => ?_, rfl⟩
    rw [List.prefix_nil.1 hstart]
    exact Int.le_refl 0

/-- The first spot of such a run changes how many brackets are open for the rest. -/
theorem closesUp_cons_iff {depth next : Nat} {x : Spot} {rest : List Spot}
    (hnext : (next : Int) = depth + bracketBalance [x]) :
    ClosesUp depth (x :: rest) ↔ ClosesUp next rest := by
  constructor
  · intro h
    constructor
    · intro start hstart
      have hbelow := h.never_below (x :: start) ((List.prefix_cons_inj x).2 hstart)
      rw [bracketBalance_cons] at hbelow
      omega
    · have hclosed := h.closed
      rw [bracketBalance_cons] at hclosed
      omega
  · intro h
    constructor
    · intro start hstart
      cases start with
      | nil => simp
      | cons y start =>
          obtain ⟨rfl, hprefix⟩ := List.cons_prefix_cons.1 hstart
          have hbelow := h.never_below start hprefix
          rw [bracketBalance_cons]
          omega
    · have hclosed := h.closed
      rw [bracketBalance_cons]
      omega

/-- Such a run does not start with a closing bracket where none is open. -/
theorem not_closesUp_closer {x : Spot} {rest : List Spot} (hx : x.cell.isCloser = true) :
    ¬ClosesUp 0 (x :: rest) := by
  intro h
  have hbelow := h.never_below [x] ⟨rest, rfl⟩
  rw [bracketBalance_closer hx] at hbelow
  omega

/-! ### The walk over a list -/

/-- What a character of a list reads as: comments and line breaks are blanks. -/
def Spot.listed (x : Spot) : Cell :=
  if x.isBreak || x.cell.isComment then Cell.space else x.cell

/-- The walk ends at a closing bracket where none is open, and takes in every other spot. -/
theorem cellsToClose?_cons {lastLine depth : Nat} {x : Spot} {rest : List Spot}
    (hline : x.position.line ≤ lastLine) :
    cellsToClose? lastLine depth (x :: rest) =
      if depth = 0 ∧ x.cell.isCloser = true then
        if x.cell.char = ')' then some ([], x.position) else none
      else
        (cellsToClose? lastLine (bracketStep depth x.cell) rest).map fun (cells, p) =>
          (x.listed :: cells, p) := by
  rw [cellsToClose?, if_neg (Nat.not_lt.2 hline), Spot.listed]
  by_cases hblank : (x.isBreak || x.cell.isComment) = true
  · have hnot := Spot.not_bracket_of_blanked hblank
    rw [Cell.isBracket, Bool.or_eq_false_iff] at hnot
    simp [hblank, hnot, bracketStep]
  · simp [hblank]

/-- A walk over spots on increasing lines stops behind brackets that close each other. -/
theorem cellsToClose?_eq_some_iff {lastLine depth : Nat} {spots : List Spot}
    (hlines : spots.Pairwise fun x y => x.position.line ≤ y.position.line) {cells : List Cell}
    {p : Position} :
    cellsToClose? lastLine depth spots = some (cells, p) ↔
      ∃ inner after, spots = inner ++ ⟨p, ⟨')', .code⟩⟩ :: after ∧ ClosesUp depth inner ∧
        p.line ≤ lastLine ∧ cells = inner.map Spot.listed := by
  induction spots generalizing depth cells with
  | nil => simp [cellsToClose?]
  | cons x rest ih =>
      obtain ⟨hx, hrest⟩ := List.pairwise_cons.1 hlines
      by_cases hline : x.position.line ≤ lastLine
      · rw [cellsToClose?_cons hline]
        split
        · next hcloser =>
            obtain ⟨rfl, hcloser⟩ := hcloser
            constructor
            · intro h
              split at h
              · next hchar =>
                  obtain ⟨position, char, region⟩ := x
                  simp only [Option.some.injEq, Prod.mk.injEq] at h hchar
                  obtain ⟨rfl, rfl⟩ := h
                  have hbracket : Cell.isBracket ⟨char, region⟩ = true := by
                    simp [Cell.isBracket, hcloser]
                  obtain rfl : region = .code := (Cell.isBracket_spec hbracket).1
                  exact ⟨[], rest, by rw [hchar]; rfl, closesUp_nil_iff.2 rfl, hline, rfl⟩
              · simp at h
            · rintro ⟨inner, after, hspots, hcloses, -, rfl⟩
              cases inner with
              | nil =>
                  obtain ⟨rfl, -⟩ := List.cons.inj hspots
                  rfl
              | cons y inner =>
                  obtain ⟨rfl, -⟩ := List.cons.inj hspots
                  exact absurd hcloses (not_closesUp_closer hcloser)
        · next hcloser =>
            have hstep := bracketStep_eq_add fun hc =>
              Nat.pos_of_ne_zero fun hzero => hcloser ⟨hzero, hc⟩
            simp only [Option.map_eq_some_iff, Prod.exists, Prod.mk.injEq]
            constructor
            · rintro ⟨cells', p', h, rfl, rfl⟩
              obtain ⟨inner, after, rfl, hcloses, hp, rfl⟩ := (ih hrest).1 h
              exact ⟨x :: inner, after, rfl, (closesUp_cons_iff hstep).2 hcloses, hp, rfl⟩
            · rintro ⟨inner, after, hspots, hcloses, hp, rfl⟩
              cases inner with
              | nil =>
                  -- a closing parenthesis was left to be read, so some bracket is open
                  obtain ⟨rfl, -⟩ := List.cons.inj hspots
                  exact absurd ⟨closesUp_nil_iff.1 hcloses, rfl⟩ hcloser
              | cons y inner =>
                  obtain ⟨rfl, rfl⟩ := List.cons.inj hspots
                  refine ⟨_, p, (ih hrest).2 ⟨inner, after, rfl, ?_, hp, rfl⟩, rfl, rfl⟩
                  exact (closesUp_cons_iff hstep).1 hcloses
      · rw [cellsToClose?, if_pos (Nat.not_le.1 hline)]
        refine iff_of_false (by simp) ?_
        rintro ⟨inner, after, hspots, -, hp, -⟩
        -- what comes later stands on no line above
        have hmem : ⟨p, ⟨')', .code⟩⟩ ∈ x :: rest := by simp [hspots]
        rcases List.mem_cons.1 hmem with rfl | hmem
        · exact hline hp
        · exact hline (Nat.le_trans (hx _ hmem) hp)

/-! ### The first bracket that closes too much -/

namespace Source

/--
At a closing bracket behind a position, of any of the three kinds, more brackets have been closed
than opened since.
-/
def ExceedsAt (s : Source) (opening p : Position) : Prop :=
  (∃ c : Cell, ⟨p, c⟩ ∈ s.spots ∧ c.isCloser = true) ∧ opening < p ∧
    (s.spotsWithin opening.next p.next).countP (·.cell.isOpener) <
      (s.spotsWithin opening.next p.next).countP (·.cell.isCloser)

/-- The spots from behind one spot up to and including another one. -/
theorem spotsWithin_next_next {s : Source} {before inner after : List Spot} {o x : Spot}
    (h : s.spots = before ++ o :: (inner ++ x :: after)) :
    s.spotsWithin o.position.next x.position.next = inner ++ [x] := by
  obtain ⟨hbefore, hinner, hafter, hlt⟩ := order_of_split h
  rw [List.append_cons, List.append_cons inner] at h
  refine spotsWithin_eq h ?_ ?_ ?_
  · simpa [or_imp, forall_and] using fun y hy => le_of_lt (hbefore y hy)
  · intro y hy
    rw [Position.next_le_iff, Position.lt_next_iff]
    rcases List.mem_append.1 hy with hy | hy
    · exact ⟨(hinner y hy).1, le_of_lt (hinner y hy).2⟩
    · rw [List.mem_singleton.1 hy]
      exact ⟨hlt, le_refl _⟩
  · simpa using hafter

/-- Behind a spot, a closing bracket closes too much just if the balance up to it is negative. -/
theorem exceedsAt_iff {s : Source} {before inner after : List Spot} {o x : Spot}
    (h : s.spots = before ++ o :: (inner ++ x :: after)) :
    s.ExceedsAt o.position x.position ↔
      x.cell.isCloser = true ∧ bracketBalance (inner ++ [x]) < 0 := by
  have hx : x ∈ s.spots := by simp [h]
  obtain ⟨-, -, -, hlt⟩ := order_of_split h
  rw [ExceedsAt, spotsWithin_next_next h, bracketBalance]
  constructor
  · rintro ⟨⟨c, hc, hcloser⟩, -, hcount⟩
    obtain rfl : c = x.cell := congrArg Spot.cell (eq_of_position_eq hc hx rfl)
    exact ⟨hcloser, by omega⟩
  · rintro ⟨hcloser, hcount⟩
    exact ⟨⟨x.cell, hx, hcloser⟩, hlt, by omega⟩

end Source

/-- The balance is nowhere negative if it is so at no closing bracket. -/
theorem balance_nonneg_of_closers {spots : List Spot}
    (h : ∀ before x after, spots = before ++ x :: after → x.cell.isCloser = true →
      0 ≤ bracketBalance (before ++ [x])) {start : List Spot} (hstart : start <+: spots) :
    0 ≤ bracketBalance start := by
  induction start using List.reverseRecOn with
  | nil => exact Int.le_refl 0
  | append_singleton start x ih =>
      have hbefore := ih ((List.prefix_append start [x]).trans hstart)
      obtain ⟨after, rfl⟩ := hstart
      by_cases hc : x.cell.isCloser = true
      · exact h start x after (by simp) hc
      · rw [bracketBalance_append]
        by_cases ho : x.cell.isOpener = true
        · rw [bracketBalance_opener ho]
          omega
        · rw [bracketBalance_other (by simpa using ho) (by simpa using hc)]
          omega

namespace Source

/-- The first bracket that closes too much is the one behind brackets that close each other. -/
theorem exceedsAt_first_iff {s : Source} {before inner after : List Spot} {o x : Spot}
    (h : s.spots = before ++ o :: (inner ++ x :: after)) :
    (s.ExceedsAt o.position x.position ∧ ∀ p, s.ExceedsAt o.position p → x.position ≤ p) ↔
      x.cell.isCloser = true ∧ ClosesUp 0 inner := by
  obtain ⟨-, hinner, hafter, -⟩ := order_of_split h
  rw [exceedsAt_iff h, bracketBalance_append]
  constructor
  · rintro ⟨⟨hcloser, hbalance⟩, hfirst⟩
    have hnonneg : ∀ start, start <+: inner → 0 ≤ bracketBalance start := by
      refine fun start => balance_nonneg_of_closers fun before' y after' hsplit hy => ?_
      -- an earlier bracket would be the first one
      by_contra hneg
      have hspots : s.spots = before ++ o :: (before' ++ y :: (after' ++ x :: after)) := by
        simp [h, hsplit]
      have hle := hfirst y.position ((exceedsAt_iff hspots).2 ⟨hy, Int.not_le.1 hneg⟩)
      exact absurd (hinner y (by simp [hsplit])).2 (not_lt_of_ge hle)
    have hall := hnonneg inner (List.prefix_refl inner)
    rw [bracketBalance_closer hcloser] at hbalance
    exact ⟨hcloser, fun start hstart => by simpa using hnonneg start hstart, by omega⟩
  · rintro ⟨hcloser, hcloses⟩
    have hclosed := hcloses.closed
    rw [bracketBalance_closer hcloser]
    refine ⟨⟨hcloser, by omega⟩, fun p hp => ?_⟩
    by_contra hlt
    obtain ⟨⟨c, hc, -⟩, hopening, -⟩ := id hp
    -- a bracket before is one of those in between
    have hmem : ⟨p, c⟩ ∈ inner := by
      rw [← spotsWithin_next_eq h, mem_spotsWithin, Position.next_le_iff]
      exact ⟨hc, hopening, not_le.1 hlt⟩
    obtain ⟨before', after', rfl⟩ := List.append_of_mem hmem
    have hspots : s.spots = before ++ o :: (before' ++ ⟨p, c⟩ :: (after' ++ x :: after)) := by
      simp [h]
    obtain ⟨-, hneg⟩ := (exceedsAt_iff hspots).1 hp
    have hbelow := hcloses.never_below (before' ++ [⟨p, c⟩]) ⟨after', by simp⟩
    omega

end Source

/-! ### Lists of parameters -/

/--
**A list of parameters ends where it has to.**  Behind an opening parenthesis of the code, a list is
read just if, at the first closing bracket at which more brackets were closed than opened since,
there stands a parenthesis, no more than the set number of lines below.  The list ends there, and
has one cell for each character and each line break between the two, in order: a blank for those of
comments and for line breaks, and the character itself for all others.
-/
theorem parameterCells?_exact {s : Source} {opening : Position}
    (h : ⟨opening, ⟨'(', .code⟩⟩ ∈ s.spots) (cells : List Cell) (closing : Position) :
    parameterCells? s opening = some (cells, closing) ↔
      (s.ExceedsAt opening closing ∧ ∀ p, s.ExceedsAt opening p → closing ≤ p) ∧
        ⟨closing, ⟨')', .code⟩⟩ ∈ s.spots ∧ closing.line ≤ opening.line + maxHeaderLines ∧
          cells = (s.spotsWithin opening.next closing).map Spot.listed := by
  obtain ⟨l, hl, hcell⟩ := Source.cell_of_code_mem h (by decide)
  have hreaches := Source.reaches_next_of_cell hl hcell
  obtain ⟨before, rest, hspots⟩ := List.append_of_mem h
  have hrest : s.spotsFrom opening.next = rest := Source.spotsFrom_next hreaches hspots
  have hlines : rest.Pairwise fun x y => x.position.line ≤ y.position.line := by
    have hordered := s.spots_pairwise
    rw [hspots] at hordered
    have hbehind := (List.pairwise_cons.1 (List.pairwise_append.1 hordered).2.1).2
    exact hbehind.imp fun hlt => Position.line_le_of_le (le_of_lt hlt)
  rw [parameterCells?, hrest, cellsToClose?_eq_some_iff hlines]
  constructor
  · rintro ⟨inner, after, rfl, hcloses, hline, rfl⟩
    have hfirst := (Source.exceedsAt_first_iff hspots).2 ⟨rfl, hcloses⟩
    have hinner := Source.spotsWithin_next_eq hspots
    exact ⟨hfirst, by simp [hspots], hline, by rw [← hinner]⟩
  · rintro ⟨hfirst, hmem, hline, rfl⟩
    have hrestmem : ⟨closing, ⟨')', .code⟩⟩ ∈ rest := by
      rw [← hrest, Source.mem_spotsFrom_iff hreaches, Position.next_le_iff]
      exact ⟨hmem, hfirst.1.2.1⟩
    obtain ⟨inner, after, rfl⟩ := List.append_of_mem hrestmem
    obtain ⟨-, hcloses⟩ := (Source.exceedsAt_first_iff hspots).1 hfirst
    have hinner := Source.spotsWithin_next_eq hspots
    exact ⟨inner, after, rfl, hcloses, hline, by rw [← hinner]⟩

/-- A list over three lines, with parentheses in comments and in a literal. -/
def spreadList : List Char :=
  "F(a, ; one )\n  b := [1, \")\"], /* ( */\n  c)\n\x7b\n\x7d".toList

/-- The list is read up to the parenthesis on its last line, which is the first bracket that closes
too much. -/
theorem parameterCells?_exact_spreadList :
    ⟨⟨0, 1⟩, ⟨'(', .code⟩⟩ ∈ (Source.scan spreadList).spots ∧
      (∃ cells, parameterCells? (Source.scan spreadList) ⟨0, 1⟩ = some (cells, ⟨2, 3⟩) ∧
        cells.map Cell.char = "a,           b := [1, \")\"],           c".toList) ∧
      (Source.scan spreadList).ExceedsAt ⟨0, 1⟩ ⟨2, 3⟩ ∧
      ∀ p, (Source.scan spreadList).ExceedsAt ⟨0, 1⟩ p → ⟨2, 3⟩ ≤ p := by
  have hopening : ⟨⟨0, 1⟩, ⟨'(', .code⟩⟩ ∈ (Source.scan spreadList).spots := by decide +kernel
  have hread : (parameterCells? (Source.scan spreadList) ⟨0, 1⟩).map
      (fun (cells, p) => (cells.map Cell.char, p)) =
        some ("a,           b := [1, \")\"],           c".toList, ⟨2, 3⟩) := by decide +kernel
  obtain ⟨⟨cells, p⟩, hcells, heq⟩ := Option.map_eq_some_iff.1 hread
  obtain ⟨hchars, rfl⟩ := Prod.mk.inj heq
  obtain ⟨⟨hexceeds, hfirst⟩, -⟩ := (parameterCells?_exact hopening cells _).1 hcells
  exact ⟨hopening, ⟨cells, hcells, hchars⟩, hexceeds, hfirst⟩

end ScriptOutline
