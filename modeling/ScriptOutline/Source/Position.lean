/-
**Positions and spans of a source text.**

A position counts lines and columns from zero; a column counts characters, so that it does not
depend on how the text is stored.  Positions are ordered first by line and then by column.  A span
runs from its start up to, but not including, its stop.

Main definitions:

* `Position` — a line and a column, with the reading order;
* `Span` — two positions;
* `Span.contains`, `Span.encloses`, `Span.overlaps` — how spans lie to positions and to each other;
* `Span.display` — a span in the usual notation that counts from one;
* `latest?` — the member of a list that starts last.

Main results:

* `Position.le_iff`, `Position.lt_iff` — the order, spelt out in lines and columns.
-/

set_option relaxedAutoImplicit false
set_option autoImplicit false

namespace ScriptOutline

/-- A place in a source text: the line and the column, both counted from zero. -/
structure Position where
  line : Nat
  column : Nat
  deriving DecidableEq, Repr

namespace Position

/-- Positions are ordered by line, then by column. -/
instance : LT Position :=
  ⟨fun p q => p.line < q.line ∨ p.line = q.line ∧ p.column < q.column⟩

/-- Positions are ordered by line, then by column. -/
instance : LE Position :=
  ⟨fun p q => p.line < q.line ∨ p.line = q.line ∧ p.column ≤ q.column⟩

theorem lt_iff {p q : Position} :
    p < q ↔ p.line < q.line ∨ p.line = q.line ∧ p.column < q.column := Iff.rfl

theorem le_iff {p q : Position} :
    p ≤ q ↔ p.line < q.line ∨ p.line = q.line ∧ p.column ≤ q.column := Iff.rfl

instance (p q : Position) : Decidable (p < q) :=
  decidable_of_iff _ lt_iff.symm

instance (p q : Position) : Decidable (p ≤ q) :=
  decidable_of_iff _ le_iff.symm

/-- The position one column to the right. -/
def next (p : Position) : Position :=
  ⟨p.line, p.column + 1⟩

end Position

/-- A stretch of a source text, from `start` up to but not including `stop`. -/
structure Span where
  start : Position
  stop : Position
  deriving DecidableEq, Repr

namespace Span

/-- Whether a position lies in a span. -/
def contains (s : Span) (p : Position) : Bool :=
  s.start ≤ p && p < s.stop

/-- Whether a span holds all of another. -/
def encloses (s t : Span) : Bool :=
  s.start ≤ t.start && t.stop ≤ s.stop

/-- Whether each of two spans starts before the other stops. -/
def overlaps (s t : Span) : Bool :=
  s.start < t.stop && t.start < s.stop

/-- A span as `line:column-line:column`, counted from one. -/
def display (s : Span) : String :=
  toString (s.start.line + 1) ++ ":" ++ toString (s.start.column + 1) ++ "-" ++
    toString (s.stop.line + 1) ++ ":" ++ toString (s.stop.column + 1)

end Span

/-! ### What starts last -/

/-- The member of a list that starts last, and the last of several that start together. -/
def latest? {α : Type} (start : α → Position) : List α → Option α
  | [] => none
  | a :: rest =>
    match latest? start rest with
    | none => some a
    | some b => if start a ≤ start b then some b else some a

end ScriptOutline
