/-
**How declarations lie to each other.**

In a text whose brackets are nested the bodies of declarations form a forest: a body that starts
inside of another one ends inside of it.  The end of a block is the other end of a brace pair, and
that of an expression is found by counting brackets, but both stop at the same brackets.  Headers
take no part in this.  A return type may hold the closing brace of the function before, and so may
an expression end at a line break within the next header; this is the only way in which two
declarations overlap without one holding the other.

Main definitions:

* `Body.stop` — where a body ends;
* `typeWithBrace` — a text with nested brackets in which two declarations overlap.

Main results:

* `stop_blockAt`, `stop_arrowAt` — the end of a block and of an expression;
* `Body.stop_le_of_start_lt` — bodies form a forest;
* `compatible_iff_not_stop_in_header` — two declarations are apart or one holds the other, unless
  the first stops in the header of the second.
-/

import ScriptOutline.Proofs.Nesting
import ScriptOutline.Proofs.RecordOrder

set_option relaxedAutoImplicit false
set_option autoImplicit false

namespace ScriptOutline

/-! ### Ends of bodies -/

/-- Where a body ends: an open block runs to the end of the text. -/
def Body.stop (s : Source) : Body → Position
  | .block _ (some closing) => closing.next
  | .block _ none => s.endPosition
  | .arrow _ stop => stop

theorem Declaration.stop_eq (s : Source) (d : Declaration) : d.stop s = d.body.stop s := by
  unfold Declaration.stop Body.stop
  cases d.body with
  | arrow start stop => rfl
  | block opening closing => cases closing <;> rfl

theorem stop_blockAt {s : Source} {p c : Position} (h : s.matchingBrace? p = some c) :
    (blockAt s p).stop s = c.next := by
  simp [blockAt, Body.stop, h]

theorem stop_arrowAt (s : Source) (p : Position) :
    (arrowAt s p).stop s =
      ArrowState.finish s.endPosition (ArrowState.run ⟨0, none⟩ (s.spotsFrom p)) :=
  arrowStop_eq_run s.endPosition 0 none (s.spotsFrom p)

section

variable {s : Source} {p q : Position}

/-- A block that opens inside of a block closes inside of it. -/
theorem stop_block_block (hs : s.IsPaired) (hn : s.IsNested) (hp : ⟨p, ⟨'{', .code⟩⟩ ∈ s.spots)
    (hq : ⟨q, ⟨'{', .code⟩⟩ ∈ s.spots) (hpq : p < q) (hstop : q < (blockAt s p).stop s) :
    (blockAt s q).stop s ≤ (blockAt s p).stop s := by
  obtain ⟨before, inner, c, after, hspots, hinner, hmatch, hpairs⟩ := Source.exists_block hs hn hp
  obtain ⟨hbefore, hbetween, hafter, -⟩ := Source.order_of_split hspots
  rw [stop_blockAt hmatch] at hstop ⊢
  -- the inner brace is one of the spots between the two ends of the outer block
  have hmem : (⟨q, ⟨'{', .code⟩⟩ : Spot) ∈ inner := by
    have hq' := hq
    rw [hspots] at hq'
    simp only [List.mem_append, List.mem_cons, Spot.mk.injEq, Cell.mk.injEq] at hq'
    rcases hq' with hq' | hq' | hq' | hq' | hq'
    · exact absurd (hbefore _ hq') (not_lt_of_ge (le_of_lt hpq))
    · exact absurd hq'.1 (ne_of_gt hpq)
    · exact hq'
    · exact absurd hq'.2.1 (by decide)
    · exact absurd (hafter _ hq') (not_lt_of_ge (Position.lt_next_iff.1 hstop))
  obtain ⟨before', inner', c', after', -, -, -, hpair, -⟩ :=
    hinner.exists_block hmem (Cell.isCodeChar_iff.2 rfl)
  rw [stop_blockAt (hpairs _ hpair), Position.next_le_iff, Position.lt_next_iff]
  obtain ⟨-, hclose⟩ := mem_pairBraces hpair
  exact le_of_lt (hbetween _ hclose).2

/-- An expression that starts inside of a block ends inside of it. -/
theorem stop_block_arrow (hs : s.IsPaired) (hn : s.IsNested) (hp : ⟨p, ⟨'{', .code⟩⟩ ∈ s.spots)
    (hq : s.Reaches q) (hpq : p < q) (hstop : q < (blockAt s p).stop s) :
    (arrowAt s q).stop s ≤ (blockAt s p).stop s := by
  obtain ⟨before, inner, c, after, hspots, hinner, hmatch, -⟩ := Source.exists_block hs hn hp
  obtain ⟨hbefore, hbetween, hafter, -⟩ := Source.order_of_split hspots
  rw [stop_blockAt hmatch] at hstop ⊢
  rw [Position.lt_next_iff] at hstop
  have hfrom : s.spotsFrom q =
      inner.dropWhile (fun x => decide (x.position < q)) ++ ⟨c, ⟨'}', .code⟩⟩ :: after := by
    have hsplit : s.spots = (before ++ ⟨p, ⟨'{', .code⟩⟩ :: inner) ++ ⟨c, ⟨'}', .code⟩⟩ :: after := by
      rw [hspots, List.append_assoc, List.cons_append]
    rw [Source.spotsFrom_eq_dropWhile_append hq hsplit, List.dropWhile_append_of_pos,
      List.dropWhile_cons_of_pos (by simpa using hpq)]
    · intro x hx
      exact decide_eq_true (lt_trans (hbefore x hx) hpq)
    · intro y hy
      rcases List.mem_cons.1 hy with rfl | hy
      · exact hstop
      · exact le_trans hstop (le_of_lt (hafter y hy))
  -- what is left of the inside closes all it opens, and no less
  have hbalance : bracketBalance (inner.dropWhile fun x => decide (x.position < q)) ≤ 0 := by
    have hsplit := List.takeWhile_append_dropWhile (p := fun x => decide (x.position < q)) (l := inner)
    have hnonneg := hinner.balance_nonneg hsplit.symm
    have hzero := hinner.balance_eq_zero
    rw [← hsplit, bracketBalance_append] at hzero
    omega
  obtain ⟨stop, hrun⟩ := @ArrowState.run_closer ⟨0, none⟩ _ ⟨c, ⟨'}', .code⟩⟩
    (by simpa using hbalance) rfl
  have hle := @ArrowState.run_le ⟨0, none⟩
    (inner.dropWhile (fun x => decide (x.position < q)) ++ [⟨c, ⟨'}', .code⟩⟩]) c.next
    (by simp) ?_
  · rw [hrun] at hle
    rw [stop_arrowAt, hfrom, List.append_cons, ArrowState.run_append, hrun]
    exact hle
  · intro x hx
    rw [Position.lt_next_iff]
    rcases List.mem_append.1 hx with hx | hx
    · exact le_of_lt (hbetween x ((List.dropWhile_sublist _).subset hx)).2
    · rw [List.mem_singleton.1 hx]

/-- A block that opens inside of an expression closes inside of it. -/
theorem stop_arrow_block (hs : s.IsPaired) (hn : s.IsNested) (hp : s.Reaches p)
    (hq : ⟨q, ⟨'{', .code⟩⟩ ∈ s.spots) (hpq : p < q) (hstop : q < (arrowAt s p).stop s) :
    (blockAt s q).stop s ≤ (arrowAt s p).stop s := by
  obtain ⟨before, inner, c, after, hspots, hinner, hmatch, -⟩ := Source.exists_block hs hn hq
  obtain ⟨hbefore, hbetween, hafter, hqc⟩ := Source.order_of_split hspots
  simp only at hqc
  have hfrom : s.spotsFrom p = before.dropWhile (fun x => decide (x.position < p)) ++
      ⟨q, ⟨'{', .code⟩⟩ :: (inner ++ ⟨c, ⟨'}', .code⟩⟩ :: after) := by
    refine Source.spotsFrom_eq_dropWhile_append hp hspots ?_
    intro y hy
    simp only [List.mem_append, List.mem_cons] at hy
    rcases hy with rfl | hy | rfl | hy
    · exact le_of_lt hpq
    · exact le_of_lt (lt_trans hpq (hbetween y hy).1)
    · exact le_of_lt (lt_trans hpq hqc)
    · exact le_of_lt (lt_trans (lt_trans hpq hqc) (hafter y hy))
  rw [stop_arrowAt, hfrom] at hstop
  obtain ⟨next, hrun, -⟩ := ArrowState.run_ok_of_lt_finish
    (fun x hx => hbefore x ((List.dropWhile_sublist _).subset hx)) hstop
  -- the walk comes to the block, passes over it, and ends behind it
  rw [stop_blockAt hmatch, stop_arrowAt, hfrom, ArrowState.run_append, hrun]
  simp only
  rw [ArrowState.run_pair rfl rfl hinner]
  refine ArrowState.le_finish ⟨c.next, rfl, le_refl _⟩ ?_
  intro x hx
  exact Position.next_le_iff.2 (hafter x hx)

/-- An expression that starts inside of an expression ends inside of it. -/
theorem stop_arrow_arrow (hp : s.Reaches p) (hq : s.Reaches q) (hpq : p < q)
    (hstop : q < (arrowAt s p).stop s) : (arrowAt s q).stop s ≤ (arrowAt s p).stop s := by
  obtain ⟨before, hspots, hbefore, hafter⟩ := Source.spots_eq_append hq
  have hfrom : s.spotsFrom p =
      before.dropWhile (fun x => decide (x.position < p)) ++ s.spotsFrom q := by
    refine Source.spotsFrom_eq_dropWhile_append hp hspots ?_
    intro y hy
    exact le_of_lt (lt_of_lt_of_le hpq (hafter y hy))
  rw [stop_arrowAt, hfrom] at hstop
  obtain ⟨⟨depth, last⟩, hrun, hle⟩ := ArrowState.run_ok_of_lt_finish
    (fun x hx => hbefore x ((List.dropWhile_sublist _).subset hx)) hstop
  rw [ArrowState.run_append, hrun] at hstop
  rw [stop_arrowAt, stop_arrowAt, hfrom, ArrowState.run_append, hrun]
  simp only at hle hstop ⊢
  have hsorted : (s.spotsFrom q).Pairwise fun x y => x.position < y.position := by
    have hall := s.spots_pairwise
    rw [hspots] at hall
    exact (List.pairwise_append.1 hall).2.1
  cases last with
  | none =>
      -- nothing was read before the inner expression, so both walks are the same
      rw [ArrowState.eq_of_run_none hrun rfl]
  | some l =>
      rcases @ArrowState.finish_le_of_later 0 depth l q s.endPosition _ (Nat.zero_le depth)
        (hle l rfl) hsorted hafter with h | h
      · exact absurd hstop (not_lt_of_ge h)
      · exact h

end

/-- Where brackets are nested, a body that starts inside of another one ends inside of it. -/
theorem Body.stop_le_of_start_lt {s : Source} (hs : s.IsPaired) (hn : s.IsNested) {b c : Body}
    (hb : b.IsAt s) (hc : c.IsAt s) (hstart : b.start < c.start) (hstop : c.start < b.stop s) :
    c.stop s ≤ b.stop s := by
  rcases hb with ⟨hp, hb⟩ | ⟨hp, hb⟩ <;> rcases hc with ⟨hq, hc⟩ | ⟨hq, hc⟩ <;>
    rw [hb] at hstop ⊢ <;> rw [hc]
  · exact stop_block_block hs hn hp hq hstart hstop
  · exact stop_block_arrow hs hn hp hq hstart hstop
  · exact stop_arrow_block hs hn hp hq hstart hstop
  · exact stop_arrow_arrow hp hq hstart hstop

/-! ### Declarations -/

/-- Two spans are apart, or one of them holds the other. -/
def Span.Compatible (t u : Span) : Prop :=
  t.overlaps u = false ∨ t.encloses u = true ∨ u.encloses t = true

instance (t u : Span) : Decidable (t.Compatible u) :=
  inferInstanceAs (Decidable (_ ∨ _))

/-- Spans are not compatible if the one that starts first stops inside of the other. -/
theorem Span.compatible_iff {t u : Span} (h : t.start < u.start) :
    t.Compatible u ↔ ¬(u.start < t.stop ∧ t.stop < u.stop) := by
  simp only [Compatible, overlaps, encloses, Bool.and_eq_false_iff, Bool.and_eq_true,
    decide_eq_false_iff_not, decide_eq_true_eq, not_lt]
  constructor
  · rintro ((hle | hle) | ⟨-, hle⟩ | ⟨hle, -⟩) ⟨hstart, hstop⟩
    · exact absurd (lt_trans h (lt_trans hstart hstop)) (not_lt_of_ge hle)
    · exact absurd hstart (not_lt_of_ge hle)
    · exact absurd hstop (not_lt_of_ge hle)
    · exact absurd h (not_lt_of_ge hle)
  · intro hnot
    rcases lt_or_ge u.start t.stop with hstart | hstart
    · rcases lt_or_ge t.stop u.stop with hstop | hstop
      · exact absurd ⟨hstart, hstop⟩ hnot
      · exact Or.inr (Or.inl ⟨le_of_lt h, hstop⟩)
    · exact Or.inl (Or.inr hstart)

/-- A declaration that stops inside of a later one stops in its header. -/
theorem Declaration.stop_le_bodyStart {s : Source} (hs : s.IsPaired) (hn : s.IsNested)
    {d e : Declaration} (hd : d ∈ declarations s) (he : e ∈ declarations s)
    (hstart : d.start < e.start) (hstop : d.stop s < e.stop s) : d.stop s ≤ e.bodyStart := by
  have hdPlaced := declarations_placed hd
  have hePlaced := declarations_placed he
  have hbody : d.bodyStart < e.bodyStart :=
    lt_trans (Position.lt_of_line_lt (bodyStart_lt_of_start_lt hd he hstart)) hePlaced.start_lt
  rcases lt_or_ge e.bodyStart (d.stop s) with hlt | hge
  · rw [d.stop_eq] at hlt hstop
    rw [e.stop_eq] at hstop
    have hle := Body.stop_le_of_start_lt hs hn hdPlaced.body_isAt hePlaced.body_isAt hbody hlt
    exact absurd hstop (not_lt_of_ge hle)
  · exact hge

/--
Where brackets are nested, any two declarations are apart or one holds the other, unless the first
of them stops in the header of the second, between its start and its body.
-/
theorem compatible_iff_not_stop_in_header (text : List Char) (version : Int32)
    (hn : (Source.scan text).IsNested) :
    (routinesOf text version).map Routine.span = declaredSpans (Source.scan text) ∧
      (declarations (Source.scan text)).Pairwise fun d e =>
        d.start < e.start ∧
          ((d.span (Source.scan text)).Compatible (e.span (Source.scan text)) ↔
            ¬(e.start < d.stop (Source.scan text) ∧ d.stop (Source.scan text) ≤ e.bodyStart ∧
              d.stop (Source.scan text) < e.stop (Source.scan text))) := by
  constructor
  · rw [routinesOf, assemble_eq, List.map_map]
    rfl
  · refine (declarations_starts _).imp_of_mem ?_
    intro d e hd he hstart
    refine ⟨hstart, ?_⟩
    rw [Span.compatible_iff (by exact hstart), not_iff_not]
    constructor
    · rintro ⟨hlt, hstop⟩
      have hle :=
        Declaration.stop_le_bodyStart (Source.isPaired_scan text) hn hd he hstart hstop
      exact ⟨hlt, hle, hstop⟩
    · rintro ⟨hlt, -, hstop⟩
      exact ⟨hlt, hstop⟩

/-- Two functions, of which the second names a type that starts with the brace of the first. -/
def typeWithBrace : List Char :=
  "A() \x7b\nB() -> \x7d \x7b\n\x7d".toList

/-- There brackets are nested, and yet the two functions overlap in part. -/
theorem compatible_iff_not_stop_in_header_typeWithBrace :
    (Source.scan typeWithBrace).IsNested ∧
      ∃ f ∈ routinesOf typeWithBrace 0, ∃ g ∈ routinesOf typeWithBrace 0,
        ¬f.span.Compatible g.span := by
  have hn : (Source.scan typeWithBrace).IsNested := by decide +kernel
  refine ⟨hn, ?_⟩
  obtain ⟨hspans, -⟩ := compatible_iff_not_stop_in_header typeWithBrace 0 hn
  have hdeclared : declaredSpans (Source.scan typeWithBrace) =
      [⟨⟨0, 0⟩, ⟨1, 8⟩⟩, ⟨⟨1, 0⟩, ⟨2, 1⟩⟩] := by
    decide +kernel
  rw [hdeclared] at hspans
  obtain ⟨f, rest, hrecords, hf, hrest⟩ := List.map_eq_cons_iff.1 hspans
  obtain ⟨g, _, rfl, hg, -⟩ := List.map_eq_cons_iff.1 hrest
  refine ⟨f, by simp [hrecords], g, by simp [hrecords], ?_⟩
  rw [hf, hg]
  decide

end ScriptOutline
