/-
**The reading order of a scanned text.**

The spots of a text come in strictly increasing order of their positions, so that what
follows a position is a suffix of the whole.  This is what lets statements
about walks over spots be turned into statements about positions and back.

Main definitions:

* `Source.spots` — all spots of a text;
* `Source.Reaches` — a position is at a character of a line, or just past its last one;
* `Source.spotsWithin` — the spots from one position up to another.

Main results:

* the instance of `LinearOrder` on `Position`;
* `spotsOfLines_pairwise` — spots come in increasing order;
* `Source.mem_spots_iff` — which spots a text has;
* `Source.spots_eq_above` — the spots around a position;
* `Source.spots_eq_append`, `Source.spotsFrom_eq_dropWhile` — what follows a position is a suffix of
  all spots;
* `Source.order_of_split` — how the spots around two of them are ordered;
* `Source.le_endPosition` — no spot lies behind the end.
-/

import Mathlib.Data.List.TakeWhile
import Mathlib.Order.Defs.LinearOrder
import ScriptOutline.Source

set_option relaxedAutoImplicit false
set_option autoImplicit false

namespace ScriptOutline

/-! ### Positions -/

namespace Position

/-- Of two positions one comes first. -/
instance : LinearOrder Position where
  le := (· ≤ ·)
  lt := (· < ·)
  le_refl p := by simp [le_iff]
  le_trans p q r hpq hqr := by rw [le_iff] at *; omega
  lt_iff_le_not_ge p q := by rw [le_iff, le_iff, lt_iff]; omega
  le_antisymm p q hpq hqp := by
    rw [le_iff] at hpq hqp
    obtain ⟨l, c⟩ := p
    obtain ⟨l', c'⟩ := q
    simp only [mk.injEq] at *
    omega
  le_total p q := by rw [le_iff, le_iff]; omega
  toDecidableLE := inferInstance
  toDecidableLT := inferInstance
  toDecidableEq := inferInstance

theorem lt_next (p : Position) : p < p.next := by
  rw [lt_iff]
  simp [next]

@[simp] theorem next_le_iff {p q : Position} : p.next ≤ q ↔ p < q := by
  rw [le_iff, lt_iff]
  simp only [next]
  omega

@[simp] theorem lt_next_iff {p q : Position} : p < q.next ↔ p ≤ q := by
  rw [le_iff, lt_iff]
  simp only [next]
  omega

theorem line_le_of_le {p q : Position} (h : p ≤ q) : p.line ≤ q.line := by
  rw [le_iff] at h
  omega

theorem lt_of_line_lt {p q : Position} (h : p.line < q.line) : p < q :=
  lt_iff.2 (Or.inl h)

end Position

/-! ### Spots of a line -/

theorem spotsOfCells_append (line column : Nat) (cells rest : List Cell) :
    spotsOfCells line column (cells ++ rest) =
      spotsOfCells line column cells ++ spotsOfCells line (column + cells.length) rest := by
  induction cells generalizing column with
  | nil => rfl
  | cons c cells ih =>
      simp only [List.cons_append, spotsOfCells, ih, List.length_cons]
      rw [Nat.add_right_comm column 1 cells.length, Nat.add_assoc]

theorem mem_spotsOfCells {line column : Nat} {cells : List Cell} {x : Spot} :
    x ∈ spotsOfCells line column cells ↔
      ∃ k, cells[k]? = some x.cell ∧ x.position = ⟨line, column + k⟩ := by
  induction cells generalizing column with
  | nil => simp [spotsOfCells]
  | cons c rest ih =>
      simp only [spotsOfCells, List.mem_cons, ih]
      constructor
      · rintro (rfl | ⟨k, hk, hx⟩)
        · exact ⟨0, rfl, rfl⟩
        · exact ⟨k + 1, by simpa using hk, by rw [hx]; congr 1; omega⟩
      · rintro ⟨k, hk, hx⟩
        cases k with
        | zero =>
            obtain ⟨position, cell⟩ := x
            simp only [List.getElem?_cons_zero, Option.some.injEq] at hk hx
            exact Or.inl (by rw [hk, hx]; rfl)
        | succ k => exact Or.inr ⟨k, by simpa using hk, by rw [hx]; congr 1; omega⟩

theorem spotsOfCells_pairwise (line column : Nat) (cells : List Cell) :
    (spotsOfCells line column cells).Pairwise fun x y => x.position < y.position := by
  induction cells generalizing column with
  | nil => exact List.Pairwise.nil
  | cons c rest ih =>
      refine List.Pairwise.cons ?_ (ih (column + 1))
      intro y hy
      obtain ⟨k, -, hposition⟩ := mem_spotsOfCells.1 hy
      rw [hposition, Position.lt_iff]
      exact Or.inr ⟨rfl, by simp only; omega⟩

namespace Line

/-- The spot of the break that ends a line. -/
def breakSpot (l : Line) (n : Nat) : Spot :=
  ⟨⟨n, l.length⟩, ⟨'\n', l.breakRegion⟩⟩

theorem spotsFrom_eq (l : Line) (n column : Nat) :
    l.spotsFrom n column = spotsOfCells n column (l.cells.drop column) ++ [l.breakSpot n] := rfl

theorem mem_spotsFrom {l : Line} {n column : Nat} {x : Spot} :
    x ∈ l.spotsFrom n column ↔
      (∃ k, column ≤ k ∧ l.cells[k]? = some x.cell ∧ x.position = ⟨n, k⟩) ∨
        x = l.breakSpot n := by
  rw [spotsFrom_eq, List.mem_append, List.mem_singleton, mem_spotsOfCells]
  refine or_congr_left ?_
  constructor
  · rintro ⟨k, hk, hx⟩
    exact ⟨column + k, Nat.le_add_right .., by rwa [List.getElem?_drop] at hk, hx⟩
  · rintro ⟨k, hle, hk, hx⟩
    refine ⟨k - column, ?_, ?_⟩
    · rw [List.getElem?_drop]
      rwa [Nat.add_sub_cancel' hle]
    · rwa [Nat.add_sub_cancel' hle]

/-- What a line has from its start is what comes before a column and what follows it. -/
theorem spotsFrom_zero (l : Line) (n column : Nat) (h : column ≤ l.length) :
    l.spotsFrom n 0 = spotsOfCells n 0 (l.cells.take column) ++ l.spotsFrom n column := by
  have hlength : (l.cells.take column).length = column := by
    rw [List.length_take]
    exact Nat.min_eq_left h
  rw [spotsFrom_eq, spotsFrom_eq, ← List.append_assoc, List.drop_zero]
  congr 1
  calc spotsOfCells n 0 l.cells
    _ = spotsOfCells n 0 (l.cells.take column ++ l.cells.drop column) := by
        rw [List.take_append_drop]
    _ = spotsOfCells n 0 (l.cells.take column) ++ spotsOfCells n column (l.cells.drop column) := by
        rw [spotsOfCells_append, hlength, Nat.zero_add]

theorem line_of_mem_spotsFrom {l : Line} {n column : Nat} {x : Spot}
    (h : x ∈ l.spotsFrom n column) : x.position.line = n := by
  rcases mem_spotsFrom.1 h with ⟨k, -, -, hx⟩ | rfl
  · rw [hx]
  · rfl

theorem spotsFrom_pairwise (l : Line) (n column : Nat) (h : column ≤ l.length) :
    (l.spotsFrom n column).Pairwise fun x y => x.position < y.position := by
  rw [spotsFrom_eq, List.pairwise_append]
  refine ⟨spotsOfCells_pairwise .., List.pairwise_singleton .., ?_⟩
  intro x hx y hy
  obtain ⟨k, hk, hposition⟩ := mem_spotsOfCells.1 hx
  have hlt : k < (l.cells.drop column).length := (List.getElem?_eq_some_iff.1 hk).1
  rw [List.length_drop] at hlt
  rw [List.mem_singleton.1 hy, hposition, Position.lt_iff]
  exact Or.inr ⟨rfl, by simp only [breakSpot, length] at *; omega⟩

end Line

/-! ### Spots of consecutive lines -/

theorem spotsOfLines_append (n : Nat) (lines rest : List Line) :
    spotsOfLines n (lines ++ rest) =
      spotsOfLines n lines ++ spotsOfLines (n + lines.length) rest := by
  induction lines generalizing n with
  | nil => rfl
  | cons l lines ih =>
      simp only [List.cons_append, spotsOfLines, ih, List.append_assoc, List.length_cons]
      rw [Nat.add_right_comm n 1 lines.length, Nat.add_assoc]

theorem mem_spotsOfLines {n : Nat} {lines : List Line} {x : Spot} :
    x ∈ spotsOfLines n lines ↔ ∃ (k : Nat) (l : Line), lines[k]? = some l ∧ x ∈ l.spotsFrom (n + k) 0 := by
  induction lines generalizing n with
  | nil => simp [spotsOfLines]
  | cons l rest ih =>
      simp only [spotsOfLines, List.mem_append, ih]
      constructor
      · rintro (hx | ⟨k, l', hk, hx⟩)
        · exact ⟨0, l, rfl, hx⟩
        · exact ⟨k + 1, l', by simpa using hk, by rwa [Nat.add_comm k 1, ← Nat.add_assoc]⟩
      · rintro ⟨k, l', hk, hx⟩
        cases k with
        | zero =>
            simp only [List.getElem?_cons_zero, Option.some.injEq] at hk
            exact Or.inl (by rwa [hk])
        | succ k =>
            refine Or.inr ⟨k, l', by simpa using hk, ?_⟩
            rwa [Nat.add_assoc, Nat.add_comm 1 k]

theorem line_of_mem_spotsOfLines {n : Nat} {lines : List Line} {x : Spot}
    (h : x ∈ spotsOfLines n lines) :
    n ≤ x.position.line ∧ x.position.line < n + lines.length := by
  obtain ⟨k, l, hk, hx⟩ := mem_spotsOfLines.1 h
  have hlt : k < lines.length := (List.getElem?_eq_some_iff.1 hk).1
  rw [Line.line_of_mem_spotsFrom hx]
  omega

/-- Spots come in increasing order of their positions. -/
theorem spotsOfLines_pairwise (n : Nat) (lines : List Line) :
    (spotsOfLines n lines).Pairwise fun x y => x.position < y.position := by
  induction lines generalizing n with
  | nil => exact List.Pairwise.nil
  | cons l rest ih =>
      rw [spotsOfLines, List.pairwise_append]
      refine ⟨l.spotsFrom_pairwise n 0 (Nat.zero_le _), ih (n + 1), ?_⟩
      intro x hx y hy
      apply Position.lt_of_line_lt
      rw [Line.line_of_mem_spotsFrom hx]
      have hline := line_of_mem_spotsOfLines hy
      omega

/-! ### Spots of a text -/

theorem dropWhile_append_of_neg {α : Type} {p : α → Bool} {xs ys : List α}
    (h : ∀ y ∈ ys, p y = false) : (xs ++ ys).dropWhile p = xs.dropWhile p ++ ys := by
  induction xs with
  | nil =>
      cases ys with
      | nil => rfl
      | cons y ys => simp [h y List.mem_cons_self]
  | cons x xs ih =>
      simp only [List.cons_append, List.dropWhile_cons]
      split
      · exact ih
      · rfl

namespace Source

/-- All spots of a text. -/
def spots (s : Source) : List Spot :=
  spotsOfLines 0 s.lines

theorem spots_pairwise (s : Source) : s.spots.Pairwise fun x y => x.position < y.position :=
  spotsOfLines_pairwise 0 s.lines

/-- The spots of a text are the cells of its lines and their breaks, each at its place. -/
theorem mem_spots_iff {s : Source} {x : Spot} :
    x ∈ s.spots ↔ ∃ l, s.line? x.position.line = some l ∧
      (l.cells[x.position.column]? = some x.cell ∨ x = l.breakSpot x.position.line) := by
  rw [spots, mem_spotsOfLines]
  constructor
  · rintro ⟨k, l, hk, hx⟩
    rw [Nat.zero_add] at hx
    have hline := Line.line_of_mem_spotsFrom hx
    refine ⟨l, by rw [line?, hline]; exact hk, ?_⟩
    rcases Line.mem_spotsFrom.1 hx with ⟨j, -, hj, hposition⟩ | hbreak
    · exact Or.inl (by rw [hposition]; exact hj)
    · exact Or.inr (by rw [hline]; exact hbreak)
  · rintro ⟨l, hl, hx⟩
    refine ⟨x.position.line, l, hl, ?_⟩
    rw [Nat.zero_add, Line.mem_spotsFrom]
    rcases hx with hx | hx
    · exact Or.inl ⟨x.position.column, Nat.zero_le _, hx, rfl⟩
    · exact Or.inr hx

/-- A cell of a line is a spot of the text. -/
theorem mem_spots_of_cell {s : Source} {n column : Nat} {l : Line} {c : Cell}
    (hl : s.line? n = some l) (hc : l.cells[column]? = some c) : ⟨⟨n, column⟩, c⟩ ∈ s.spots :=
  mem_spots_iff.2 ⟨l, hl, Or.inl hc⟩

/-- A position is at a character of a line, or just past its last one. -/
def Reaches (s : Source) (p : Position) : Prop :=
  ∃ l, s.line? p.line = some l ∧ p.column ≤ l.length

theorem line_lt_of_line? {s : Source} {n : Nat} {l : Line} (h : s.line? n = some l) :
    n < s.lineCount :=
  (List.getElem?_eq_some_iff.1 h).1

theorem Reaches.line_lt {s : Source} {p : Position} (h : s.Reaches p) : p.line < s.lineCount := by
  obtain ⟨l, hl, -⟩ := h
  exact line_lt_of_line? hl

theorem reaches_of_mem_spots {s : Source} {x : Spot} (h : x ∈ s.spots) : s.Reaches x.position := by
  obtain ⟨l, hl, hx | hx⟩ := mem_spots_iff.1 h
  · exact ⟨l, hl, Nat.le_of_lt (List.getElem?_eq_some_iff.1 hx).1⟩
  · exact ⟨l, hl, by rw [hx]; exact Nat.le_refl _⟩

theorem reaches_next_of_cell {s : Source} {n column : Nat} {l : Line} {c : Cell}
    (hl : s.line? n = some l) (hc : l.cells[column]? = some c) :
    s.Reaches (Position.next ⟨n, column⟩) :=
  ⟨l, hl, (List.getElem?_eq_some_iff.1 hc).1⟩

theorem spotsFrom_eq {s : Source} {p : Position} {l : Line} (hl : s.line? p.line = some l) :
    s.spotsFrom p =
      l.spotsFrom p.line p.column ++ spotsOfLines (p.line + 1) (s.lines.drop (p.line + 1)) := by
  obtain ⟨hlt, hget⟩ := List.getElem?_eq_some_iff.1 hl
  rw [spotsFrom, List.drop_eq_getElem_cons hlt, hget]

/-- The spots of a text are those of the lines above a position, those before it, and the rest. -/
theorem spots_eq_above {s : Source} {p : Position} {l : Line} (hl : s.line? p.line = some l)
    (hcolumn : p.column ≤ l.length) :
    s.spots = (spotsOfLines 0 (s.lines.take p.line) ++
      spotsOfCells p.line 0 (l.cells.take p.column)) ++ s.spotsFrom p := by
  obtain ⟨hlt, hget⟩ := List.getElem?_eq_some_iff.1 hl
  have hlines : s.lines = s.lines.take p.line ++ l :: s.lines.drop (p.line + 1) := by
    rw [← hget, ← List.drop_eq_getElem_cons hlt, List.take_append_drop]
  have hlength : (s.lines.take p.line).length = p.line := by
    rw [List.length_take]
    exact Nat.min_eq_left (Nat.le_of_lt hlt)
  calc s.spots
    _ = spotsOfLines 0 (s.lines.take p.line ++ l :: s.lines.drop (p.line + 1)) := by
        rw [spots, ← hlines]
    _ = spotsOfLines 0 (s.lines.take p.line) ++ (l.spotsFrom p.line 0 ++
          spotsOfLines (p.line + 1) (s.lines.drop (p.line + 1))) := by
        rw [spotsOfLines_append, hlength, Nat.zero_add]
        rfl
    _ = _ := by
        rw [l.spotsFrom_zero p.line p.column hcolumn, spotsFrom_eq hl]
        simp only [List.append_assoc]

/-- What follows a position is a suffix of all spots, and what is before comes before it. -/
theorem spots_eq_append {s : Source} {p : Position} (h : s.Reaches p) :
    ∃ before, s.spots = before ++ s.spotsFrom p ∧ (∀ x ∈ before, x.position < p) ∧
      ∀ x ∈ s.spotsFrom p, p ≤ x.position := by
  obtain ⟨l, hl, hcolumn⟩ := h
  refine ⟨_, spots_eq_above hl hcolumn, ?_, ?_⟩
  · intro x hx
    rcases List.mem_append.1 hx with hx | hx
    · apply Position.lt_of_line_lt
      have hline := line_of_mem_spotsOfLines hx
      have hlength := List.length_take_le p.line s.lines
      omega
    · obtain ⟨k, hk, hposition⟩ := mem_spotsOfCells.1 hx
      have hk' := (List.getElem?_eq_some_iff.1 hk).1
      rw [List.length_take] at hk'
      rw [hposition, Position.lt_iff]
      exact Or.inr ⟨rfl, by simp only; omega⟩
  · intro x hx
    rw [spotsFrom_eq hl] at hx
    rw [Position.le_iff]
    rcases List.mem_append.1 hx with hx | hx
    · rcases Line.mem_spotsFrom.1 hx with ⟨k, hk, -, hposition⟩ | rfl
      · exact Or.inr ⟨by rw [hposition], by rw [hposition]; exact hk⟩
      · exact Or.inr ⟨rfl, hcolumn⟩
    · have hline := line_of_mem_spotsOfLines hx
      exact Or.inl (by omega)

/-- What follows a position are the spots that do not come before it. -/
theorem mem_spotsFrom_iff {s : Source} {p : Position} (h : s.Reaches p) {x : Spot} :
    x ∈ s.spotsFrom p ↔ x ∈ s.spots ∧ p ≤ x.position := by
  obtain ⟨before, hspots, hbefore, hfrom⟩ := spots_eq_append h
  constructor
  · intro hx
    exact ⟨by rw [hspots]; exact List.mem_append_right _ hx, hfrom x hx⟩
  · rintro ⟨hx, hp⟩
    rw [hspots] at hx
    rcases List.mem_append.1 hx with hx | hx
    · exact absurd (hbefore x hx) (not_lt_of_ge hp)
    · exact hx

/-- What follows a position is what is left when the spots before it are dropped. -/
theorem spotsFrom_eq_dropWhile {s : Source} {p : Position} (h : s.Reaches p) :
    s.spotsFrom p = s.spots.dropWhile fun x => decide (x.position < p) := by
  obtain ⟨before, hspots, hbefore, hfrom⟩ := spots_eq_append h
  rw [hspots, List.dropWhile_append_of_pos (fun x hx => decide_eq_true (hbefore x hx))]
  cases hrest : s.spotsFrom p with
  | nil => rfl
  | cons y ys =>
      have hy := hfrom y (by rw [hrest]; exact List.mem_cons_self)
      rw [List.dropWhile_cons_of_neg (by simpa using hy)]

/-- What follows a position has every end of the text that does not come before it. -/
theorem spotsFrom_eq_dropWhile_append {s : Source} {p : Position} (h : s.Reaches p)
    {xs ys : List Spot} (hspots : s.spots = xs ++ ys) (hys : ∀ y ∈ ys, p ≤ y.position) :
    s.spotsFrom p = xs.dropWhile (fun x => decide (x.position < p)) ++ ys := by
  rw [spotsFrom_eq_dropWhile h, hspots, dropWhile_append_of_neg]
  intro y hy
  simpa using hys y hy

/-- What follows a cell are the spots behind it. -/
theorem spotsFrom_next {s : Source} {p : Position} {c : Cell} {before after : List Spot}
    (h : s.Reaches p.next) (hspots : s.spots = before ++ ⟨p, c⟩ :: after) :
    s.spotsFrom p.next = after := by
  have hp := s.spots_pairwise
  rw [hspots] at hp
  obtain ⟨-, hafter, hbefore⟩ := List.pairwise_append.1 hp
  have hbehind : ∀ y ∈ after, p.next ≤ y.position := by
    intro y hy
    exact Position.next_le_iff.2 (List.rel_of_pairwise_cons hafter hy)
  rw [List.append_cons] at hspots
  rw [spotsFrom_eq_dropWhile_append h hspots hbehind]
  have hbefore' : ∀ x ∈ before ++ [(⟨p, c⟩ : Spot)], decide (x.position < p.next) = true := by
    intro x hx
    rw [decide_eq_true_eq, Position.lt_next_iff]
    rcases List.mem_append.1 hx with hx | hx
    · exact le_of_lt (hbefore x hx ⟨p, c⟩ List.mem_cons_self)
    · rw [List.mem_singleton.1 hx]
  rw [List.dropWhile_eq_nil_iff.2 hbefore', List.nil_append]

/-- The order of the spots around two of them. -/
theorem order_of_split {s : Source} {before inner after : List Spot} {o c : Spot}
    (h : s.spots = before ++ o :: (inner ++ c :: after)) :
    (∀ x ∈ before, x.position < o.position) ∧
      (∀ x ∈ inner, o.position < x.position ∧ x.position < c.position) ∧
        (∀ x ∈ after, c.position < x.position) ∧ o.position < c.position := by
  have hp := s.spots_pairwise
  rw [h] at hp
  obtain ⟨-, hfrom, hbefore⟩ := List.pairwise_append.1 hp
  obtain ⟨ho, hrest⟩ := List.pairwise_cons.1 hfrom
  obtain ⟨-, hafter, hinner⟩ := List.pairwise_append.1 hrest
  refine ⟨fun x hx => hbefore x hx o List.mem_cons_self, ?_, ?_, ?_⟩
  · intro x hx
    exact ⟨ho x (List.mem_append_left _ hx), hinner x hx c List.mem_cons_self⟩
  · intro x hx
    exact List.rel_of_pairwise_cons hafter hx
  · exact ho c (List.mem_append_right _ List.mem_cons_self)

theorem endPosition_eq {s : Source} {l : Line} (h : s.line? (s.lineCount - 1) = some l) :
    s.endPosition = ⟨s.lineCount - 1, l.length⟩ := by
  simp [endPosition, h]

/-- No position of a text lies behind its end. -/
theorem le_endPosition {s : Source} {p : Position} (h : s.Reaches p) : p ≤ s.endPosition := by
  obtain ⟨l, hl, hcolumn⟩ := h
  have hlt : p.line < s.lineCount := line_lt_of_line? hl
  rw [Position.le_iff]
  by_cases hlast : p.line = s.lineCount - 1
  · rw [hlast] at hl
    rw [endPosition_eq hl]
    exact Or.inr ⟨hlast, hcolumn⟩
  · exact Or.inl (by simp only [endPosition]; omega)

/-- No two spots of a text stand at one position. -/
theorem eq_of_position_eq {s : Source} {x y : Spot} (hx : x ∈ s.spots) (hy : y ∈ s.spots)
    (h : x.position = y.position) : x = y := by
  obtain ⟨before, after, hspots⟩ := List.append_of_mem hx
  have hp := s.spots_pairwise
  rw [hspots] at hp hy
  obtain ⟨-, hfrom, hbefore⟩ := List.pairwise_append.1 hp
  rcases List.mem_append.1 hy with hy | hy
  · exact absurd h.symm (ne_of_lt (hbefore y hy x List.mem_cons_self))
  · rcases List.mem_cons.1 hy with rfl | hy
    · rfl
    · exact absurd h (ne_of_lt (List.rel_of_pairwise_cons hfrom hy))

/-- The spots around one of them come before it and behind it. -/
theorem order_of_spot {s : Source} {before after : List Spot} {x : Spot}
    (h : s.spots = before ++ x :: after) :
    (∀ y ∈ before, y.position < x.position) ∧ ∀ y ∈ after, x.position < y.position := by
  have hp := s.spots_pairwise
  rw [h] at hp
  obtain ⟨-, hbehind, hahead⟩ := List.pairwise_append.1 hp
  exact ⟨fun y hy => hahead y hy x List.mem_cons_self,
    fun y hy => List.rel_of_pairwise_cons hbehind hy⟩

/-! ### Stretches of a text -/

/-- The spots from one position on, up to but not including another. -/
def spotsWithin (s : Source) (p q : Position) : List Spot :=
  s.spots.filter fun x => decide (p ≤ x.position) && decide (x.position < q)

theorem mem_spotsWithin {s : Source} {p q : Position} {x : Spot} :
    x ∈ s.spotsWithin p q ↔ x ∈ s.spots ∧ p ≤ x.position ∧ x.position < q := by
  simp [spotsWithin]

/-- A stretch of a text is what stands between what comes before it and what comes behind it. -/
theorem spotsWithin_eq {s : Source} {p q : Position} {before inner after : List Spot}
    (h : s.spots = before ++ (inner ++ after)) (hbefore : ∀ x ∈ before, x.position < p)
    (hinner : ∀ x ∈ inner, p ≤ x.position ∧ x.position < q)
    (hafter : ∀ x ∈ after, q ≤ x.position) : s.spotsWithin p q = inner := by
  have hnone {xs : List Spot} (hxs : ∀ x ∈ xs, x.position < p ∨ q ≤ x.position) :
      xs.filter (fun x => decide (p ≤ x.position) && decide (x.position < q)) = [] := by
    rw [List.filter_eq_nil_iff]
    intro x hx hin
    simp only [Bool.and_eq_true, decide_eq_true_eq] at hin
    rcases hxs x hx with hlt | hge
    · exact absurd hin.1 (not_le_of_gt hlt)
    · exact absurd hin.2 (not_lt_of_ge hge)
  have hall : inner.filter (fun x => decide (p ≤ x.position) && decide (x.position < q)) =
      inner := by
    rw [List.filter_eq_self]
    intro x hx
    simp [hinner x hx]
  rw [spotsWithin, h, List.filter_append, List.filter_append, hall,
    hnone fun x hx => Or.inl (hbefore x hx), hnone fun x hx => Or.inr (hafter x hx),
    List.nil_append, List.append_nil]

/-- What stands between two spots of a text. -/
theorem spotsWithin_next_eq {s : Source} {before inner after : List Spot} {o c : Spot}
    (h : s.spots = before ++ o :: (inner ++ c :: after)) :
    s.spotsWithin o.position.next c.position = inner := by
  obtain ⟨hbefore, hinner, hafter, -⟩ := order_of_split h
  rw [List.append_cons] at h
  refine spotsWithin_eq h ?_ ?_ ?_
  · intro x hx
    rw [Position.lt_next_iff]
    rcases List.mem_append.1 hx with hx | hx
    · exact le_of_lt (hbefore x hx)
    · rw [List.mem_singleton.1 hx]
  · intro x hx
    exact ⟨Position.next_le_iff.2 (hinner x hx).1, (hinner x hx).2⟩
  · intro x hx
    rcases List.mem_cons.1 hx with rfl | hx
    · exact le_refl _
    · exact le_of_lt (hafter x hx)

end Source

end ScriptOutline
