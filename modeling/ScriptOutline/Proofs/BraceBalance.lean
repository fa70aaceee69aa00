/-
**What stands between the two braces of a pair.**

An opening brace goes with a later closing one exactly if the braces between the two are balanced:
there are as many opening as closing ones, and reading on from the first brace never meets more
closing than opening ones.  Nothing outside of the two has a part in this, so that a stray closing
brace or one that is never closed leaves every block elsewhere as it is, and pairs do not cross.

Main definitions:

* `Balanced` — braces that close each other, and some that were open before;
* `Source.cell?` — the cell at a position;
* `Source.between` — the cells between two positions;
* `strayBraces` — a text with a pair among braces that have no other end.

Main results:

* `pendingAfter_of_balanced` — balanced braces leave what was pending before;
* `mem_pairBraces_of_balanced`, `exists_balanced_of_mem_pairBraces` — a pair has balanced braces
  between its ends, and the other way round;
* `Source.matchingBrace?_eq_some_iff` — the same for the positions of a text;
* `matchingBrace?_iff_balanced` — brace matching is exact, one to one, never crosses, and depends on
  nothing but the cells from the one brace to the other.
-/

import Mathlib.Data.List.Infix
import ScriptOutline.Proofs.BracePairs
import ScriptOutline.Proofs.DeclarationParts

set_option relaxedAutoImplicit false
set_option autoImplicit false

namespace ScriptOutline

/-! ### Counting braces -/

theorem braceBalance_append (cells rest : List Cell) :
    braceBalance (cells ++ rest) = braceBalance cells + braceBalance rest := by
  simp only [braceBalance, List.countP_append]
  omega

theorem braceBalance_cons (c : Cell) (rest : List Cell) :
    braceBalance (c :: rest) = braceBalance [c] + braceBalance rest :=
  braceBalance_append [c] rest

theorem braceBalance_open {c : Cell} (h : c.isCodeChar '{' = true) : braceBalance [c] = 1 := by
  rw [Cell.isCodeChar_iff.1 h]
  decide

theorem braceBalance_close {c : Cell} (h : c.isCodeChar '}' = true) : braceBalance [c] = -1 := by
  rw [Cell.isCodeChar_iff.1 h]
  decide

theorem braceBalance_other {c : Cell} (hopen : c.isCodeChar '{' = false)
    (hclose : c.isCodeChar '}' = false) : braceBalance [c] = 0 := by
  simp [braceBalance, hopen, hclose]

/--
The braces of a run of cells close each other, and the `depth` braces that were opened just before:
no start of the run closes more than was open, and all of it closes everything.
-/
structure Balanced (depth : Nat) (cells : List Cell) : Prop where
  never_below : ∀ start, start <+: cells → 0 ≤ depth + braceBalance start
  closed : depth + braceBalance cells = 0

instance (depth : Nat) (cells : List Cell) : Decidable (Balanced depth cells) :=
  decidable_of_iff ((∀ start ∈ cells.inits, 0 ≤ depth + braceBalance start) ∧
      depth + braceBalance cells = 0)
    ⟨fun h => ⟨fun start hstart => h.1 start ((List.mem_inits start cells).2 hstart), h.2⟩,
      fun h => ⟨fun start hstart => h.never_below start ((List.mem_inits start cells).1 hstart),
        h.closed⟩⟩

theorem balanced_nil_iff {depth : Nat} : Balanced depth [] ↔ depth = 0 := by
  constructor
  · intro h
    have hclosed := h.closed
    simp only [braceBalance, List.countP_nil] at hclosed
    omega
  · rintro rfl
    refine ⟨?_, rfl⟩
    intro start hstart
    rw [List.prefix_nil.1 hstart]
    decide

/-- The first cell of a balanced run changes how many braces are open for the rest. -/
theorem balanced_cons_iff {depth next : Nat} {c : Cell} {rest : List Cell}
    (hnext : (next : Int) = depth + braceBalance [c]) :
    Balanced depth (c :: rest) ↔ Balanced next rest := by
  constructor
  · intro h
    constructor
    · intro start hstart
      have hbelow := h.never_below (c :: start) ((List.prefix_cons_inj c).2 hstart)
      rw [braceBalance_cons] at hbelow
      omega
    · have hclosed := h.closed
      rw [braceBalance_cons] at hclosed
      omega
  · intro h
    constructor
    · intro start hstart
      cases start with
      | nil =>
          have hzero : braceBalance [] = 0 := by decide
          omega
      | cons d start =>
          obtain ⟨rfl, hprefix⟩ := List.cons_prefix_cons.1 hstart
          have hbelow := h.never_below start hprefix
          rw [braceBalance_cons]
          omega
    · have hclosed := h.closed
      rw [braceBalance_cons]
      omega

/-- A balanced run does not start with a closing brace where none is open. -/
theorem not_balanced_close {c : Cell} {rest : List Cell} (hc : c.isCodeChar '}' = true) :
    ¬Balanced 0 (c :: rest) := by
  intro h
  have hbelow := h.never_below [c] ⟨rest, rfl⟩
  rw [braceBalance_close hc] at hbelow
  omega

/-! ### Pairs and balanced braces -/

/-- The cells of a run of spots. -/
def cellsOf (spots : List Spot) : List Cell :=
  spots.map Spot.cell

/-- Balanced braces close what is pending above, and leave what is pending below. -/
theorem pendingAfter_of_balanced {above below : List Position} {spots : List Spot}
    (h : Balanced above.length (cellsOf spots)) : pendingAfter (above ++ below) spots = below := by
  induction spots generalizing above with
  | nil =>
      have hnil : above = [] := List.length_eq_zero_iff.1 (balanced_nil_iff.1 h)
      rw [hnil]
      rfl
  | cons x rest ih =>
      simp only [cellsOf, List.map_cons] at h
      simp only [pendingAfter]
      split
      · next hopen =>
          have hnext : ((above.length + 1 : Nat) : Int) =
              above.length + braceBalance [x.cell] := by
            rw [braceBalance_open hopen]
            omega
          exact @ih (x.position :: above) ((balanced_cons_iff hnext).1 h)
      · next hopen =>
          split
          · next hclose =>
              cases above with
              | nil => exact absurd h (not_balanced_close hclose)
              | cons p above =>
                  have hnext : ((above.length : Nat) : Int) =
                      (p :: above).length + braceBalance [x.cell] := by
                    rw [braceBalance_close hclose, List.length_cons]
                    omega
                  exact ih ((balanced_cons_iff hnext).1 h)
          · next hclose =>
              have hnext : ((above.length : Nat) : Int) =
                  above.length + braceBalance [x.cell] := by
                rw [braceBalance_other (by simpa using hopen) (by simpa using hclose)]
                omega
              exact ih ((balanced_cons_iff hnext).1 h)

/-- Two braces with balanced braces between them are a pair, whatever stands around them. -/
theorem mem_pairBraces_of_balanced {pending : List Position} {before inner after : List Spot}
    {p q : Position} (h : Balanced 0 (cellsOf inner)) :
    (p, q) ∈ pairBraces pending
      (before ++ ⟨p, ⟨'{', .code⟩⟩ :: (inner ++ ⟨q, ⟨'}', .code⟩⟩ :: after)) := by
  have hpending : pendingAfter (p :: pendingAfter pending before) inner =
      p :: pendingAfter pending before :=
    @pendingAfter_of_balanced [] _ inner h
  rw [pairBraces_append, pairBraces_open rfl, pairBraces_append]
  refine List.mem_append_right _ (List.mem_append_right _ ?_)
  rw [hpending, pairBraces_close rfl]
  exact List.mem_cons_self

/--
Between the ends of a pair the braces are balanced.  If its first brace is a pending one, they also
close what is pending above it.
-/
theorem exists_balanced_of_mem_pairBraces {pending : List Position} {spots : List Spot}
    {p q : Position} (h : (p, q) ∈ pairBraces pending spots) :
    (∃ before inner after,
      spots = before ++ ⟨p, ⟨'{', .code⟩⟩ :: (inner ++ ⟨q, ⟨'}', .code⟩⟩ :: after) ∧
        Balanced 0 (cellsOf inner)) ∨
    ∃ above below inner after, pending = above ++ p :: below ∧
      spots = inner ++ ⟨q, ⟨'}', .code⟩⟩ :: after ∧ Balanced above.length (cellsOf inner) := by
  induction spots generalizing pending with
  | nil => simp [pairBraces] at h
  | cons x rest ih =>
      simp only [pairBraces] at h
      split at h
      · next hopen =>
          rcases ih h with ⟨before, inner, after, rfl, hinner⟩ | ⟨above, below, inner, after, hpending,
            rfl, hinner⟩
          · exact Or.inl ⟨x :: before, inner, after, rfl, hinner⟩
          · cases above with
            | nil =>
                -- the pair starts here
                simp only [List.nil_append, List.cons.injEq] at hpending
                obtain ⟨position, cell⟩ := x
                obtain rfl := Cell.isCodeChar_iff.1 hopen
                simp only at hpending
                rw [hpending.1]
                exact Or.inl ⟨[], inner, after, rfl, hinner⟩
            | cons p' above =>
                simp only [List.cons_append, List.cons.injEq] at hpending
                refine Or.inr ⟨above, below, x :: inner, after, hpending.2, rfl, ?_⟩
                refine (balanced_cons_iff ?_).2 hinner
                rw [braceBalance_open hopen, List.length_cons]
                omega
      · next hopen =>
          split at h
          · next hclose =>
              split at h
              · -- a stray brace: nothing is pending, so the pair lies in the rest
                rcases ih h with ⟨before, inner, after, rfl, hinner⟩ | ⟨above, below, inner, after,
                  hpending, -, -⟩
                · exact Or.inl ⟨x :: before, inner, after, rfl, hinner⟩
                · simp at hpending
              · next opening pending =>
                  rcases List.mem_cons.1 h with heq | h
                  · simp only [Prod.mk.injEq] at heq
                    obtain ⟨position, cell⟩ := x
                    obtain rfl := Cell.isCodeChar_iff.1 hclose
                    obtain ⟨rfl, rfl⟩ := heq
                    exact Or.inr ⟨[], pending, [], rest, rfl, rfl, balanced_nil_iff.2 rfl⟩
                  · rcases ih h with ⟨before, inner, after, rfl, hinner⟩ | ⟨above, below, inner,
                      after, rfl, rfl, hinner⟩
                    · exact Or.inl ⟨x :: before, inner, after, rfl, hinner⟩
                    · refine Or.inr ⟨opening :: above, below, x :: inner, after, rfl, rfl, ?_⟩
                      refine (balanced_cons_iff ?_).2 hinner
                      rw [braceBalance_close hclose, List.length_cons]
                      omega
          · next hclose =>
              rcases ih h with ⟨before, inner, after, rfl, hinner⟩ | ⟨above, below, inner, after,
                rfl, rfl, hinner⟩
              · exact Or.inl ⟨x :: before, inner, after, rfl, hinner⟩
              · refine Or.inr ⟨above, below, x :: inner, after, rfl, rfl, ?_⟩
                refine (balanced_cons_iff ?_).2 hinner
                rw [braceBalance_other (by simpa using hopen) (by simpa using hclose)]
                omega

/-! ### Positions of a text -/

namespace Source

/-- The cell at a position. -/
def cell? (s : Source) (p : Position) : Option Cell :=
  (s.line? p.line).bind fun l => l.cells[p.column]?

/-- The cells between two positions, with those of the line breaks. -/
def between (s : Source) (p q : Position) : List Cell :=
  cellsOf (s.spots.filter fun x => decide (p < x.position) && decide (x.position < q))

theorem cell?_eq_some_iff {s : Source} {p : Position} {c : Char} (hc : c ≠ '\n') :
    s.cell? p = some ⟨c, .code⟩ ↔ ⟨p, ⟨c, .code⟩⟩ ∈ s.spots := by
  constructor
  · intro h
    obtain ⟨l, hl, hcell⟩ := Option.bind_eq_some_iff.1 h
    exact mem_spots_of_cell hl hcell
  · intro h
    obtain ⟨l, hl, hcell⟩ := cell_of_code_mem h hc
    rw [cell?, hl]
    exact hcell

/-- Of two spots the one with the later position comes behind the other. -/
theorem exists_split {s : Source} {x y : Spot} (hx : x ∈ s.spots) (hy : y ∈ s.spots)
    (h : x.position < y.position) :
    ∃ before inner after, s.spots = before ++ x :: (inner ++ y :: after) := by
  obtain ⟨before, rest, hspots⟩ := List.append_of_mem hx
  have hp := s.spots_pairwise
  rw [hspots] at hp hy
  obtain ⟨-, -, hbefore⟩ := List.pairwise_append.1 hp
  have hrest : y ∈ rest := by
    rcases List.mem_append.1 hy with hy | hy
    · exact absurd h (not_lt_of_gt (hbefore y hy x List.mem_cons_self))
    · rcases List.mem_cons.1 hy with rfl | hy
      · exact absurd h (lt_irrefl _)
      · exact hy
  obtain ⟨inner, after, rfl⟩ := List.append_of_mem hrest
  exact ⟨before, inner, after, hspots⟩

/-- What stands between two spots of a text. -/
theorem between_eq {s : Source} {before inner after : List Spot} {x y : Spot}
    (h : s.spots = before ++ x :: (inner ++ y :: after)) :
    s.between x.position y.position = cellsOf inner := by
  obtain ⟨hbefore, hinner, hafter, -⟩ := order_of_split h
  have hnone {z : Spot} (hz : z.position ≤ x.position ∨ y.position ≤ z.position) :
      (decide (x.position < z.position) && decide (z.position < y.position)) = false := by
    rw [Bool.and_eq_false_iff, decide_eq_false_iff_not, decide_eq_false_iff_not, not_lt, not_lt]
    exact hz
  have hempty {zs : List Spot}
      (hzs : ∀ z ∈ zs, z.position ≤ x.position ∨ y.position ≤ z.position) :
      zs.filter (fun z => decide (x.position < z.position) && decide (z.position < y.position)) =
        [] := by
    rw [List.filter_eq_nil_iff]
    intro z hz
    rw [hnone (hzs z hz)]
    exact Bool.false_ne_true
  have hall : inner.filter
      (fun z => decide (x.position < z.position) && decide (z.position < y.position)) = inner := by
    rw [List.filter_eq_self]
    intro z hz
    obtain ⟨hleft, hright⟩ := hinner z hz
    simp [hleft, hright]
  rw [between, h, List.filter_append, List.filter_cons_of_neg (by simp), List.filter_append, hall,
    List.filter_cons_of_neg (by simp), hempty (fun z hz => Or.inl (le_of_lt (hbefore z hz))),
    hempty (fun z hz => Or.inr (le_of_lt (hafter z hz))), List.nil_append, List.append_nil]

/-- A cell between two others cuts what stands between them in two. -/
theorem between_eq_append {s : Source} {x y z : Spot} (hx : x ∈ s.spots) (hy : y ∈ s.spots)
    (hz : z ∈ s.spots) (hxy : x.position < y.position) (hyz : y.position < z.position) :
    s.between x.position z.position =
      s.between x.position y.position ++ y.cell :: s.between y.position z.position := by
  obtain ⟨before, inner, after, hspots⟩ := exists_split hx hy hxy
  have hp := s.spots_pairwise
  rw [hspots] at hp hz
  obtain ⟨hbefore, hinner, -, -⟩ := order_of_split hspots
  have hmem : z ∈ after := by
    simp only [List.mem_append, List.mem_cons] at hz
    rcases hz with hz | rfl | hz | rfl | hz
    · exact absurd (hbefore z hz) (not_lt_of_gt (lt_trans hxy hyz))
    · exact absurd (lt_trans hxy hyz) (lt_irrefl _)
    · exact absurd (hinner z hz).2 (not_lt_of_gt hyz)
    · exact absurd hyz (lt_irrefl _)
    · exact hz
  obtain ⟨middle, after, rfl⟩ := List.append_of_mem hmem
  have houter : s.spots = before ++ x :: ((inner ++ y :: middle) ++ z :: after) := by
    rw [hspots]
    simp only [List.append_assoc, List.cons_append]
  have hright : s.spots = (before ++ x :: inner) ++ y :: (middle ++ z :: after) := by
    rw [hspots]
    simp only [List.append_assoc, List.cons_append]
  rw [between_eq houter, between_eq hspots, between_eq hright]
  simp only [cellsOf, List.map_append, List.map_cons]

/-- A brace goes with another one exactly if the braces between the two are balanced. -/
theorem matchingBrace?_eq_some_iff {s : Source} (hs : s.IsPaired) {p q : Position} :
    s.matchingBrace? p = some q ↔ s.cell? p = some ⟨'{', .code⟩ ∧ s.cell? q = some ⟨'}', .code⟩ ∧
      p < q ∧ Balanced 0 (s.between p q) := by
  rw [cell?_eq_some_iff (by decide), cell?_eq_some_iff (by decide)]
  constructor
  · intro h
    have hpair := mem_of_matchingBrace? hs h
    rcases exists_balanced_of_mem_pairBraces hpair with ⟨before, inner, after, hspots, hinner⟩ |
      ⟨above, below, -, -, hpending, -, -⟩
    · obtain ⟨-, -, -, hlt⟩ := order_of_split hspots
      refine ⟨by simp [hspots], by simp [hspots], hlt, ?_⟩
      have hbetween := between_eq hspots
      simp only at hbetween
      rw [hbetween]
      exact hinner
    · simp at hpending
  · rintro ⟨hp, hq, hlt, hbalanced⟩
    obtain ⟨before, inner, after, hspots⟩ := exists_split hp hq hlt
    have hbetween := between_eq hspots
    simp only at hbetween
    rw [hbetween] at hbalanced
    have hpair : (p, q) ∈ pairBraces [] s.spots := by
      rw [hspots]
      exact mem_pairBraces_of_balanced hbalanced
    exact matchingBrace?_of_mem hs hpair

section

variable {s : Source} (hs : s.IsPaired) {p q p' q' : Position}

include hs

/-- A brace that opens a pair inside of another one leaves the rest of that one open. -/
theorem balance_of_inner (hp : s.matchingBrace? p = some q) (hp' : s.matchingBrace? p' = some q')
    (hstart : p < p') (hinside : p' < q) : braceBalance (s.between p' q) ≤ -1 := by
  obtain ⟨hopen, hclose, hlt, hbalanced⟩ := (matchingBrace?_eq_some_iff hs).1 hp
  obtain ⟨hopen', -, -, -⟩ := (matchingBrace?_eq_some_iff hs).1 hp'
  rw [cell?_eq_some_iff (by decide)] at hopen hclose hopen'
  have hsplit := between_eq_append hopen hopen' hclose hstart hinside
  simp only at hsplit
  have hbelow := hbalanced.never_below (s.between p p') (by rw [hsplit]; exact List.prefix_append _ _)
  have hclosed := hbalanced.closed
  rw [hsplit, braceBalance_append, braceBalance_cons, braceBalance_open rfl] at hclosed
  omega

/-- Two opening braces never share their other end. -/
theorem matchingBrace?_inj (hp : s.matchingBrace? p = some q) (hp' : s.matchingBrace? p' = some q) :
    p = p' := by
  have hnot {a b : Position} (ha : s.matchingBrace? a = some q) (hb : s.matchingBrace? b = some q) :
      ¬a < b := by
    intro hlt
    obtain ⟨-, -, hinside, hbalanced⟩ := (matchingBrace?_eq_some_iff hs).1 hb
    have hbalance := balance_of_inner hs ha hb hlt hinside
    have hclosed := hbalanced.closed
    omega
  exact le_antisymm (not_lt.1 (hnot hp' hp)) (not_lt.1 (hnot hp hp'))

/-- A pair that opens inside of another one closes inside of it. -/
theorem matchingBrace?_lt (hp : s.matchingBrace? p = some q) (hp' : s.matchingBrace? p' = some q')
    (hstart : p < p') (hinside : p' < q) : q' < q := by
  rcases lt_trichotomy q' q with hlt | rfl | hlt
  · exact hlt
  · exact absurd (matchingBrace?_inj hs hp hp') (ne_of_lt hstart)
  · -- the outer pair would close more inside of the inner one than was opened there
    obtain ⟨-, hclose, -, -⟩ := (matchingBrace?_eq_some_iff hs).1 hp
    obtain ⟨hopen', hclose', -, hbalanced⟩ := (matchingBrace?_eq_some_iff hs).1 hp'
    rw [cell?_eq_some_iff (by decide)] at hclose hopen' hclose'
    have hsplit := between_eq_append hopen' hclose hclose' hinside hlt
    simp only at hsplit
    have hbelow := hbalanced.never_below (s.between p' q)
      (by rw [hsplit]; exact List.prefix_append _ _)
    have hbalance := balance_of_inner hs hp hp' hstart hinside
    omega

end

end Source

/-! ### Brace matching -/

/--
An opening brace of the code goes with a closing one exactly if that comes later and the braces
between the two are balanced.  So no two braces share their other end, pairs do not cross, and two
braces are a pair wherever the same cells stand from the one to the other.
-/
theorem matchingBrace?_iff_balanced (text : List Char) :
    (∀ p q, (Source.scan text).matchingBrace? p = some q ↔
      (Source.scan text).cell? p = some ⟨'{', .code⟩ ∧
        (Source.scan text).cell? q = some ⟨'}', .code⟩ ∧ p < q ∧
          Balanced 0 ((Source.scan text).between p q)) ∧
    (∀ p p' q, (Source.scan text).matchingBrace? p = some q →
      (Source.scan text).matchingBrace? p' = some q → p = p') ∧
    (∀ p q p' q', (Source.scan text).matchingBrace? p = some q →
      (Source.scan text).matchingBrace? p' = some q' → p < p' → p' < q → q' < q) ∧
    ∀ (other : List Char) (p q p' q' : Position), p < q → p' < q' →
      (Source.scan text).cell? p = (Source.scan other).cell? p' →
      (Source.scan text).cell? q = (Source.scan other).cell? q' →
      (Source.scan text).between p q = (Source.scan other).between p' q' →
      ((Source.scan text).matchingBrace? p = some q ↔
        (Source.scan other).matchingBrace? p' = some q') := by
  have hs := Source.isPaired_scan text
  refine ⟨?_, ?_, ?_, ?_⟩
  · intro p q
    exact Source.matchingBrace?_eq_some_iff hs
  · intro p p' q hp hp'
    exact Source.matchingBrace?_inj hs hp hp'
  · intro p q p' q' hp hp' hstart hinside
    exact Source.matchingBrace?_lt hs hp hp' hstart hinside
  · intro other p q p' q' hlt hlt' hopen hclose hbetween
    have hother := Source.isPaired_scan other
    rw [Source.matchingBrace?_eq_some_iff hs, Source.matchingBrace?_eq_some_iff hother, hopen,
      hclose, hbetween]
    simp only [hlt, hlt', true_and]

/-- A pair of braces, with a stray one before it, one in a literal, and two that are never closed. -/
def strayBraces : List Char :=
  "\x7d F() \x7b\x7b s := \"\x7d\" \x7d\n\x7b".toList

/-- The pair is found, since the braces between its ends are balanced. -/
theorem matchingBrace?_iff_balanced_strayBraces :
    Balanced 0 ((Source.scan strayBraces).between ⟨0, 7⟩ ⟨0, 18⟩) ∧
      (Source.scan strayBraces).matchingBrace? ⟨0, 7⟩ = some ⟨0, 18⟩ ∧
        (Source.scan strayBraces).matchingBrace? ⟨0, 6⟩ = none := by
  have hbalanced : Balanced 0 ((Source.scan strayBraces).between ⟨0, 7⟩ ⟨0, 18⟩) := by
    decide +kernel
  refine ⟨hbalanced, ?_, by decide +kernel⟩
  refine ((matchingBrace?_iff_balanced strayBraces).1 _ _).2 ⟨?_, ?_, by decide, hbalanced⟩
  · decide +kernel
  · decide +kernel

end ScriptOutline
