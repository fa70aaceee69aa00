/-
**What stands below other lines.**

A text that stands below other lines is read as it would be alone, except that every line number
grows by their number.  The readers of declarations look at a text from a position on only, so that
each of them commutes with moving positions down.

Main definitions:

* `Position.down`, `Span.down`, `Spot.down`, `Body.down`, `Declaration.down` — the same, a number
  of lines further down;
* `Source.IsBelow` — a text stands below other lines, and its braces pair as they did alone.

Main results:

* `spotsOfLines_down`, `Source.IsBelow.spotsFrom_down` — spots move down;
* `arrowStop_down`, `cellsToClose?_down`, `firstBrace?_down` — so do the results of the walks;
* `Source.IsBelow.declaration?_down`, `Source.IsBelow.declarationsFrom_down` — and declarations;
* `Source.IsBelow.span_down`, `Source.IsBelow.bodySpan_down` — and what they span.
-/

import ScriptOutline.Declaration.Reader
import ScriptOutline.Proofs.ReadingOrder

set_option relaxedAutoImplicit false
set_option autoImplicit false

namespace ScriptOutline

/-! ### Moving down -/

/-- A position, a number of lines further down. -/
def Position.down (k : Nat) (p : Position) : Position :=
  ⟨p.line + k, p.column⟩

/-- A span, a number of lines further down. -/
def Span.down (k : Nat) (t : Span) : Span :=
  ⟨t.start.down k, t.stop.down k⟩

/-- A spot, a number of lines further down. -/
def Spot.down (k : Nat) (x : Spot) : Spot :=
  ⟨x.position.down k, x.cell⟩

/-- A body, a number of lines further down. -/
def Body.down (k : Nat) : Body → Body
  | .block opening closing => .block (opening.down k) (closing.map (Position.down k))
  | .arrow start stop => .arrow (start.down k) (stop.down k)

/-- A declaration, a number of lines further down. -/
def Declaration.down (k : Nat) (d : Declaration) : Declaration :=
  { d with start := d.start.down k, body := d.body.down k, headerLine := d.headerLine + k }

section

variable {k : Nat} {p q : Position} {t u : Span}

@[simp] theorem Position.down_le_down : p.down k ≤ q.down k ↔ p ≤ q := by
  simp only [Position.le_iff, Position.down]
  omega

@[simp] theorem Position.down_lt_down : p.down k < q.down k ↔ p < q := by
  simp only [Position.lt_iff, Position.down]
  omega

@[simp] theorem Position.down_inj : p.down k = q.down k ↔ p = q := by
  obtain ⟨line, column⟩ := p
  obtain ⟨line', column'⟩ := q
  simp only [Position.down, Position.mk.injEq]
  omega

@[simp] theorem Position.next_down : (p.down k).next = p.next.down k := rfl

@[simp] theorem Span.start_down : (t.down k).start = t.start.down k := rfl

@[simp] theorem Span.stop_down : (t.down k).stop = t.stop.down k := rfl

@[simp] theorem Span.contains_down : (t.down k).contains (p.down k) = t.contains p := by
  simp [Span.contains]

@[simp] theorem Span.encloses_down : (t.down k).encloses (u.down k) = t.encloses u := by
  simp [Span.encloses]

@[simp] theorem Span.down_inj : t.down k = u.down k ↔ t = u := by
  obtain ⟨start, stop⟩ := t
  obtain ⟨start', stop'⟩ := u
  simp [Span.down]

end

/-! ### Spots -/

theorem spotsOfCells_down (k n column : Nat) (cells : List Cell) :
    spotsOfCells (n + k) column cells = (spotsOfCells n column cells).map (Spot.down k) := by
  induction cells generalizing column with
  | nil => rfl
  | cons c rest ih =>
      simp only [spotsOfCells, List.map_cons, ih]
      rfl

theorem Line.spotsFrom_down (l : Line) (k n column : Nat) :
    l.spotsFrom (n + k) column = (l.spotsFrom n column).map (Spot.down k) := by
  rw [Line.spotsFrom_eq, Line.spotsFrom_eq, spotsOfCells_down, List.map_append]
  rfl

theorem spotsOfLines_down (k n : Nat) (lines : List Line) :
    spotsOfLines (n + k) lines = (spotsOfLines n lines).map (Spot.down k) := by
  induction lines generalizing n with
  | nil => rfl
  | cons l rest ih =>
      simp only [spotsOfLines, List.map_append]
      rw [Line.spotsFrom_down, Nat.add_right_comm n k 1, ih]

/-! ### Walks -/

theorem cellsToClose?_down (k lastLine depth : Nat) (spots : List Spot) :
    cellsToClose? (lastLine + k) depth (spots.map (Spot.down k)) =
      (cellsToClose? lastLine depth spots).map fun (cells, p) => (cells, p.down k) := by
  induction spots generalizing depth with
  | nil => rfl
  | cons x rest ih =>
      simp only [List.map_cons, cellsToClose?]
      have hline : (lastLine + k < (x.down k).position.line) = (lastLine < x.position.line) := by
        simp only [Spot.down, Position.down, Nat.add_lt_add_iff_right]
      simp only [hline]
      split
      · rfl
      · have hbreak : (x.down k).isBreak = x.isBreak := rfl
        have hcell : (x.down k).cell = x.cell := rfl
        simp only [hbreak, hcell]
        split
        · rw [ih, Option.map_map, Option.map_map]
          rfl
        · split
          · split <;> rfl
          · rw [ih, Option.map_map, Option.map_map]
            rfl

theorem arrowStop_down (k : Nat) (finish : Position) (depth : Nat) (last : Option Position)
    (spots : List Spot) :
    arrowStop (finish.down k) depth (last.map (Position.down k)) (spots.map (Spot.down k)) =
      (arrowStop finish depth last spots).down k := by
  induction spots generalizing depth last with
  | nil => cases last <;> rfl
  | cons x rest ih =>
      have hbreak : (x.down k).isBreak = x.isBreak := rfl
      have hcell : (x.down k).cell = x.cell := rfl
      simp only [List.map_cons, arrowStop, hbreak, hcell]
      split
      · cases depth with
        | zero =>
            cases last with
            | none => exact ih 0 none
            | some stop => rfl
        | succ depth => exact ih (depth + 1) last
      · split
        · exact ih depth last
        · split
          · cases last <;> rfl
          · exact ih (bracketStep depth x.cell) (some x.position.next)

theorem firstBrace?_down (k n : Nat) (lines : List Line) :
    firstBrace? (n + k) lines = (firstBrace? n lines).map (Position.down k) := by
  induction lines generalizing n with
  | nil => rfl
  | cons l rest ih =>
      simp only [firstBrace?]
      split
      · rw [Nat.add_right_comm n k 1, ih]
      · split <;> rfl

/-! ### A text below others -/

/-- A text stands below other lines, and its braces pair as they did alone. -/
structure Source.IsBelow (above : List Line) (s t : Source) : Prop where
  lines : t.lines = above ++ s.lines
  nonempty : s.lines ≠ []
  braces : ∀ p, t.matchingBrace? (p.down above.length) =
    (s.matchingBrace? p).map (Position.down above.length)

namespace Source.IsBelow

variable {above : List Line} {s t : Source} (h : s.IsBelow above t)

include h

theorem drop_lines (n : Nat) : t.lines.drop (n + above.length) = s.lines.drop n := by
  rw [h.lines, Nat.add_comm, List.drop_append, List.drop_eq_nil_of_le (Nat.le_add_right _ _),
    Nat.add_sub_cancel_left, List.nil_append]

theorem line?_down (n : Nat) : t.line? (n + above.length) = s.line? n := by
  rw [line?, line?, h.lines, List.getElem?_append_right (Nat.le_add_left _ _),
    Nat.add_sub_cancel]

theorem endPosition_down : t.endPosition = s.endPosition.down above.length := by
  have hpos : 0 < s.lines.length := List.length_pos_iff.2 h.nonempty
  have hlast : t.lineCount - 1 = s.lineCount - 1 + above.length := by
    simp only [lineCount, h.lines, List.length_append]
    omega
  simp only [endPosition, hlast, h.line?_down]
  rfl

theorem spotsFrom_down (p : Position) :
    t.spotsFrom (p.down above.length) = (s.spotsFrom p).map (Spot.down above.length) := by
  simp only [spotsFrom, Position.down, h.drop_lines]
  split
  · rfl
  · next l rest _ =>
      rw [Nat.add_right_comm, Line.spotsFrom_down, spotsOfLines_down, List.map_append]

theorem nextBrace?_down (n : Nat) :
    nextBrace? t (n + above.length) = (nextBrace? s n).map (Position.down above.length) := by
  rw [nextBrace?, nextBrace?, Nat.add_right_comm, h.drop_lines, firstBrace?_down]

theorem blockAt_down (p : Position) :
    blockAt t (p.down above.length) = (blockAt s p).down above.length := by
  simp only [blockAt, Body.down, h.braces]

theorem arrowAt_down (p : Position) :
    arrowAt t (p.down above.length) = (arrowAt s p).down above.length := by
  simp only [arrowAt, Body.down, h.spotsFrom_down, h.endPosition_down]
  exact congrArg _ (arrowStop_down above.length s.endPosition 0 none (s.spotsFrom p))

theorem bodyFrom?_down (l : Line) (n : Nat) (cells : List Cell) :
    bodyFrom? t l (n + above.length) cells =
      (bodyFrom? s l n cells).map fun (b, m) => (b.down above.length, m + above.length) := by
  have hnext : (nextBrace? t (n + above.length)).map (fun o => (blockAt t o, o.line)) =
      ((nextBrace? s n).map fun o => (blockAt s o, o.line)).map fun (b, m) =>
        (b.down above.length, m + above.length) := by
    rw [h.nextBrace?_down, Option.map_map, Option.map_map]
    congr 1
    funext o
    simp only [Function.comp_apply, h.blockAt_down]
    rfl
  cases cells with
  | nil => exact hnext
  | cons c rest =>
      simp only [bodyFrom?]
      split
      · exact hnext
      · split
        · simp only [Option.map_some, ← h.blockAt_down]
          rfl
        · split
          · simp only [Option.map_some, ← h.arrowAt_down]
            rfl
          · rfl

theorem tail?_down (p : Position) :
    tail? t (p.down above.length) = (tail? s p).map fun tail =>
      ⟨tail.returnType, tail.body.down above.length, tail.headerLine + above.length⟩ := by
  simp only [tail?, Position.down, h.line?_down, Option.bind_eq_bind]
  cases s.line? p.line with
  | none => rfl
  | some l =>
      simp only [Option.bind_some]
      cases readReturnType? (dropBlankCode (l.cells.drop (p.column + 1))) with
      | none => rfl
      | some typed =>
          obtain ⟨type, cells⟩ := typed
          simp only [Option.bind_some, h.bodyFrom?_down]
          cases bodyFrom? s l p.line cells <;> rfl

theorem parameterCells?_down (p : Position) :
    parameterCells? t (p.down above.length) =
      (parameterCells? s p).map fun (cells, q) => (cells, q.down above.length) := by
  rw [parameterCells?, parameterCells?, Position.next_down, h.spotsFrom_down,
    ← cellsToClose?_down]
  congr 1
  exact Nat.add_right_comm p.line above.length maxHeaderLines

/-- A declaration on a line is read on the line further down. -/
theorem declaration?_down (n : Nat) :
    declaration? t (n + above.length) =
      (declaration? s n).map (Declaration.down above.length) := by
  simp only [declaration?, h.line?_down, Option.bind_eq_bind]
  cases s.line? n with
  | none => rfl
  | some l =>
      simp only [Option.bind_some]
      cases l.firstCode? with
      | none => rfl
      | some first =>
          simp only [Option.bind_some]
          cases Header.read? (l.codeText.drop first) with
          | none => rfl
          | some header =>
              simp only [Option.bind_some]
              split
              · rfl
              · -- the opening parenthesis moves down with its line
                rw [show (⟨n + above.length, l.length - header.rest.length - 1⟩ : Position) =
                    Position.down above.length ⟨n, l.length - header.rest.length - 1⟩ from rfl,
                  h.parameterCells?_down]
                cases parameterCells? s ⟨n, l.length - header.rest.length - 1⟩ with
                | none => rfl
                | some closed =>
                    obtain ⟨cells, closing⟩ := closed
                    simp only [Option.map_some, Option.bind_some, h.tail?_down]
                    cases tail? s closing <;> rfl

theorem declarationsFrom_down (n skip : Nat) (lines : List Line) :
    declarationsFrom t (n + above.length) skip lines =
      (declarationsFrom s n skip lines).map (Declaration.down above.length) := by
  induction lines generalizing n skip with
  | nil => rfl
  | cons l rest ih =>
      simp only [declarationsFrom]
      rw [h.declaration?_down, Nat.add_right_comm]
      split
      · exact ih (n + 1) (skip - 1)
      · cases declaration? s n with
        | none => exact ih (n + 1) 0
        | some d =>
            have hskip : (d.down above.length).headerLine - (n + above.length) =
                d.headerLine - n := by
              simp only [Declaration.down]
              omega
            simp only [Option.map_some, List.map_cons, hskip]
            rw [ih]

/-! ### What declarations span -/

theorem stop_down (d : Declaration) :
    (d.down above.length).stop t = (d.stop s).down above.length := by
  simp only [Declaration.stop, Declaration.down]
  cases d.body with
  | arrow start stop => rfl
  | block opening closing =>
      cases closing with
      | none => exact h.endPosition_down
      | some closing => rfl

theorem span_down (d : Declaration) :
    (d.down above.length).span t = (d.span s).down above.length := by
  simp only [Declaration.span, h.stop_down]
  rfl

theorem bodySpan_down (d : Declaration) :
    (d.down above.length).bodySpan t = (d.bodySpan s).down above.length := by
  simp only [Declaration.bodySpan, Declaration.down]
  cases d.body with
  | arrow start stop => rfl
  | block opening closing =>
      cases closing with
      | none =>
          simp only [Body.down, Option.map_none, Option.getD_none, h.endPosition_down]
          rfl
      | some closing => rfl

end Source.IsBelow

end ScriptOutline
