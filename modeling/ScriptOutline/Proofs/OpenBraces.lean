/-
**The braces that are open at a position.**

A brace is open at a position if it comes before it and is not closed before it.  A scan counts the
open braces from character to character, and a stray closing brace, which ends no pair, leaves the
count as it is.  Within a line the braces are taken together instead: each stray one on the line
then takes a brace away that was opened, before it or behind.

Main definitions:

* `placesOf` — where a character of the code stands among spots;
* `Source.openBefore` — the number of braces that are open at a position;
* `Source.strayBefore` — the number of stray closing braces before it on its line;
* `strayThenOpen` — a text with a brace that is opened behind a stray one.

Main results:

* `opened_perm` — every opening brace is closed or still pending;
* `unpaired_length` — the closing braces are those of the pairs and the stray ones;
* `Source.openBefore_eq_length` — what is open at a position is what is pending there;
* `startDepth_eq_length` — a line starts with the braces that are pending above it;
* `depthBefore_eq_openBefore_sub` — **the depth before a position is the number of its open braces
  less that of the stray ones on its line**.
-/

import Mathlib.Data.List.Nodup
import ScriptOutline.Proofs.BraceBalance
import ScriptOutline.Proofs.Concatenation

set_option relaxedAutoImplicit false
set_option autoImplicit false

namespace ScriptOutline

/-! ### Opened and closed braces -/

/-- The positions of a character of the code among spots. -/
def placesOf (char : Char) (spots : List Spot) : List Position :=
  (spots.filter fun x => x.cell.isCodeChar char).map Spot.position

theorem placesOf_append (char : Char) (xs ys : List Spot) :
    placesOf char (xs ++ ys) = placesOf char xs ++ placesOf char ys := by
  simp only [placesOf, List.filter_append, List.map_append]

theorem placesOf_cons_of_pos {char : Char} {x : Spot} (h : x.cell.isCodeChar char = true)
    (rest : List Spot) : placesOf char (x :: rest) = x.position :: placesOf char rest := by
  simp [placesOf, h]

theorem placesOf_cons_of_neg {char : Char} {x : Spot} (h : x.cell.isCodeChar char = false)
    (rest : List Spot) : placesOf char (x :: rest) = placesOf char rest := by
  simp [placesOf, h]

theorem mem_placesOf {char : Char} {spots : List Spot} {p : Position} :
    p ∈ placesOf char spots ↔ ⟨p, ⟨char, .code⟩⟩ ∈ spots := by
  simp only [placesOf, List.mem_map, List.mem_filter]
  constructor
  · rintro ⟨⟨position, cell⟩, ⟨hmem, hcell⟩, rfl⟩
    obtain rfl := Cell.isCodeChar_iff.1 hcell
    exact hmem
  · intro hmem
    exact ⟨_, ⟨hmem, Cell.isCodeChar_iff.2 rfl⟩, rfl⟩

theorem placesOf_nodup {char : Char} {spots : List Spot} (h : (spots.map Spot.position).Nodup) :
    (placesOf char spots).Nodup :=
  h.sublist (List.filter_sublist.map Spot.position)

/-- The balance of a run of cells in the places of its braces. -/
theorem braceBalance_eq (line column : Nat) (cells : List Cell) :
    braceBalance cells = ((placesOf '{' (spotsOfCells line column cells)).length : Int) -
      (placesOf '}' (spotsOfCells line column cells)).length := by
  have hcount (char : Char) : (placesOf char (spotsOfCells line column cells)).length =
      cells.countP (·.isCodeChar char) := by
    conv_rhs => rw [← spotsOfCells_cells line column cells]
    rw [placesOf, List.length_map, ← List.countP_eq_length_filter, List.countP_map]
    rfl
  rw [braceBalance, hcount, hcount]

theorem not_isCodeChar_open {c : Cell} (h : c.isCodeChar '}' = true) :
    c.isCodeChar '{' = false := by
  rw [Cell.isCodeChar_iff.1 h]
  decide

theorem not_isCodeChar_close {c : Cell} (h : c.isCodeChar '{' = true) :
    c.isCodeChar '}' = false := by
  rw [Cell.isCodeChar_iff.1 h]
  decide

/-- Every opening brace, read or pending before, opens a pair or is pending at the end. -/
theorem opened_perm (pending : List Position) (spots : List Spot) :
    ((pairBraces pending spots).map Prod.fst ++ pendingAfter pending spots).Perm
      (pending ++ placesOf '{' spots) := by
  induction spots generalizing pending with
  | nil => simp [pairBraces, pendingAfter, placesOf]
  | cons x rest ih =>
      simp only [pendingAfter]
      split
      · next hopen =>
          rw [pairBraces_open hopen, placesOf_cons_of_pos hopen]
          exact (ih (x.position :: pending)).trans List.perm_middle.symm
      · next hopen =>
          rw [placesOf_cons_of_neg (by simpa using hopen)]
          split
          · next hclose =>
              cases pending with
              | nil =>
                  simp only [pairBraces, not_isCodeChar_open hclose, hclose, Bool.false_eq_true,
                    if_false, if_true]
                  exact ih []
              | cons opening pending =>
                  rw [pairBraces_close hclose]
                  exact (ih pending).cons opening
          · next hclose =>
              rw [pairBraces_other (by simpa using hopen) (by simpa using hclose)]
              exact ih pending

/-- The pairs end with closing braces, in reading order. -/
theorem closed_sublist (pending : List Position) (spots : List Spot) :
    ((pairBraces pending spots).map Prod.snd).Sublist (placesOf '}' spots) := by
  induction spots generalizing pending with
  | nil => simp [pairBraces, placesOf]
  | cons x rest ih =>
      simp only [pairBraces]
      split
      · next hopen =>
          rw [placesOf_cons_of_neg (not_isCodeChar_close hopen)]
          exact ih (x.position :: pending)
      · split
        · next hclose =>
            rw [placesOf_cons_of_pos hclose]
            cases pending with
            | nil => exact (ih []).cons x.position
            | cons opening pending => exact (ih pending).cons_cons x.position
        · next hclose =>
            rw [placesOf_cons_of_neg (by simpa using hclose)]
            exact ih pending

/-- The members of a list without repetition are those of a part of it and the others. -/
theorem countP_not_mem_of_sublist {part whole : List Position} (hnodup : whole.Nodup)
    (h : part.Sublist whole) :
    part.length + whole.countP (fun q => decide (q ∉ part)) = whole.length := by
  have hperm : (whole.filter fun q => decide (q ∈ part)).Perm part := by
    refine (List.perm_ext_iff_of_nodup (hnodup.filter _) (hnodup.sublist h)).2 ?_
    intro q
    simp only [List.mem_filter, decide_eq_true_eq, and_iff_right_iff_imp]
    exact fun hq => h.subset hq
  have hsplit := List.length_eq_countP_add_countP (fun q => decide (q ∈ part)) (l := whole)
  rw [List.countP_eq_length_filter, hperm.length_eq] at hsplit
  simpa using hsplit.symm

/-- The closing braces are those that end a pair and those that end none. -/
theorem unpaired_length (pending : List Position) {spots : List Spot}
    (hnodup : (spots.map Spot.position).Nodup) :
    (pairBraces pending spots).length + (placesOf '}' spots).countP
      (fun q => decide (q ∉ (pairBraces pending spots).map Prod.snd)) =
        (placesOf '}' spots).length := by
  have hcount := countP_not_mem_of_sublist (placesOf_nodup hnodup) (closed_sublist pending spots)
  rw [List.length_map] at hcount
  exact hcount

/-- What is pending after a run: a stray closing brace takes nothing away. -/
theorem pendingAfter_length (pending : List Position) {spots : List Spot}
    (hnodup : (spots.map Spot.position).Nodup) :
    (pendingAfter pending spots).length + (placesOf '}' spots).length =
      pending.length + (placesOf '{' spots).length + (placesOf '}' spots).countP
        (fun q => decide (q ∉ (pairBraces pending spots).map Prod.snd)) := by
  have hopened := (opened_perm pending spots).length_eq
  have hclosed := unpaired_length pending hnodup
  rw [List.length_append, List.length_append, List.length_map] at hopened
  omega

/-! ### Lines of a scan -/

theorem readLines_take (mode : Mode) (depth n : Nat) (lines : List (List Char)) :
    (readLines mode depth lines).take n = readLines mode depth (lines.take n) := by
  induction lines generalizing mode depth n with
  | nil => simp [readLines]
  | cons line rest ih =>
      cases n with
      | zero => rfl
      | succ n => simp only [readLines, List.take_succ_cons, ih]

theorem startDepth_of_getElem? {mode : Mode} {depth n : Nat} {lines : List (List Char)} {l : Line}
    (h : (readLines mode depth lines)[n]? = some l) :
    l.startDepth = depthAfterLines mode depth (lines.take n) := by
  induction lines generalizing mode depth n with
  | nil => simp [readLines] at h
  | cons line rest ih =>
      cases n with
      | zero =>
          simp only [readLines, List.getElem?_cons_zero, Option.some.injEq] at h
          rw [← h]
          rfl
      | succ n => exact ih (by simpa [readLines] using h)

/-- A line starts with the braces that are pending above it. -/
theorem startDepth_eq_length {text : List Char} {n : Nat} {l : Line}
    (hl : (Source.scan text).line? n = some l) :
    l.startDepth =
      (pendingAfter [] (spotsOfLines 0 ((Source.scan text).lines.take n))).length := by
  rw [startDepth_of_getElem? hl]
  simp only [Source.scan, readLines_take]
  exact depthAfterLines_eq_length [] .code 0 ((linesOf text).take n)

/-! ### The braces that are open at a position -/

namespace Source

/-- Whether an opening brace comes before a position and is not closed before it. -/
def isOpenAt (s : Source) (p opening : Position) : Bool :=
  decide (opening < p) && (s.matchingBrace? opening).all fun closing => decide (p ≤ closing)

/-- The number of braces that are open at a position. -/
def openBefore (s : Source) (p : Position) : Nat :=
  (placesOf '{' s.spots).countP (s.isOpenAt p)

/-- Whether a closing brace comes before a position, on its line, and closes no brace. -/
def isStrayAt (s : Source) (p closing : Position) : Bool :=
  decide (closing.line = p.line) && decide (closing < p) &&
    decide (closing ∉ s.bracePairs.map Prod.snd)

/-- The number of stray closing braces before a position on its line. -/
def strayBefore (s : Source) (p : Position) : Nat :=
  (placesOf '}' s.spots).countP (s.isStrayAt p)

section

variable {s : Source} (hs : s.IsPaired) {p : Position}

include hs

omit hs in
/-- The pairs of a text are those that end before a position, and those that end behind it. -/
theorem pairBraces_spots {before after : List Spot} (hspots : s.spots = before ++ after) :
    pairBraces [] s.spots = pairBraces [] before ++ pairBraces (pendingAfter [] before) after := by
  rw [hspots, pairBraces_append]

/-- A brace that opens a pair of what is before a position is closed there. -/
theorem not_isOpenAt_of_closed {before after : List Spot} (hspots : s.spots = before ++ after)
    (hbefore : ∀ x ∈ before, x.position < p) :
    ∀ q ∈ (pairBraces [] before).map Prod.fst, ¬s.isOpenAt p q = true := by
  intro q hq
  obtain ⟨pair, hpair, rfl⟩ := List.mem_map.1 hq
  have hmem : pair ∈ pairBraces [] s.spots := by
    rw [pairBraces_spots hspots]
    exact List.mem_append_left _ hpair
  have hlt := hbefore _ (mem_pairBraces hpair).2
  simp only [isOpenAt, matchingBrace?_of_mem hs hmem, Option.all_some, Bool.and_eq_true,
    decide_eq_true_eq, not_and]
  exact fun _ => not_le_of_gt hlt

/-- A brace that is pending at a position is closed behind it, or never. -/
theorem isOpenAt_of_pending {before after : List Spot} (hspots : s.spots = before ++ after)
    (hbefore : ∀ x ∈ before, x.position < p) (hafter : ∀ x ∈ after, p ≤ x.position) :
    ∀ q ∈ pendingAfter [] before, s.isOpenAt p q = true := by
  intro q hq
  have hlt : q < p := by
    rcases mem_pendingAfter hq with hnil | hmem
    · simp at hnil
    · exact hbefore _ hmem
  have hnodup : ((pairBraces [] before).map Prod.fst ++ pendingAfter [] before).Nodup := by
    have hpositions := s.spots_positions_nodup
    rw [hspots, List.map_append] at hpositions
    exact pairBraces_nodup (List.nodup_append.1 hpositions).1
  rw [isOpenAt, decide_eq_true hlt, Bool.true_and, Option.all_eq_true_iff_get]
  intro hsome
  rw [decide_eq_true_eq]
  obtain ⟨closing, hclosing⟩ := Option.isSome_iff_exists.1 hsome
  have hpair := mem_of_matchingBrace? hs hclosing
  rw [pairBraces_spots hspots] at hpair
  simp only [hclosing, Option.get_some]
  rcases List.mem_append.1 hpair with hpair | hpair
  · exact absurd rfl ((List.nodup_append.1 hnodup).2.2 q (List.mem_map_of_mem hpair) q hq)
  · exact hafter _ (mem_pairBraces hpair).2

/-- The braces that are open at a position are those that are pending there. -/
theorem openBefore_eq_length {before after : List Spot} (hspots : s.spots = before ++ after)
    (hbefore : ∀ x ∈ before, x.position < p) (hafter : ∀ x ∈ after, p ≤ x.position) :
    s.openBefore p = (pendingAfter [] before).length := by
  have hclosed := not_isOpenAt_of_closed hs hspots hbefore
  have hopen := isOpenAt_of_pending hs hspots hbefore hafter
  have hlater : (placesOf '{' after).countP (s.isOpenAt p) = 0 := by
    rw [List.countP_eq_zero]
    intro q hq
    have hle := hafter _ (mem_placesOf.1 hq)
    simp [isOpenAt, not_lt_of_ge hle]
  rw [openBefore, hspots, placesOf_append, List.countP_append, hlater, Nat.add_zero]
  have hperm := opened_perm [] before
  rw [List.nil_append] at hperm
  rw [← hperm.countP_eq, List.countP_append, List.countP_eq_zero.2 hclosed,
    List.countP_eq_length.2 hopen, Nat.zero_add]

/-- The stray closing braces before a position on its line end no pair of what is before on it. -/
theorem strayBefore_eq_countP {above before after : List Spot}
    (hspots : s.spots = (above ++ before) ++ after)
    (habove : ∀ x ∈ above, x.position.line < p.line)
    (hbefore : ∀ x ∈ before, x.position.line = p.line ∧ x.position < p)
    (hafter : ∀ x ∈ after, p ≤ x.position) :
    s.strayBefore p = (placesOf '}' before).countP fun q =>
      decide (q ∉ (pairBraces (pendingAfter [] above) before).map Prod.snd) := by
  have hpairs : s.bracePairs = pairBraces [] above ++
      pairBraces (pendingAfter [] above) before ++ pairBraces (pendingAfter [] (above ++ before))
        after := by
    rw [hs, hspots, pairBraces_append, pairBraces_append]
  have hnone {xs : List Spot} (hxs : ∀ x ∈ xs, x.position.line ≠ p.line ∨ p ≤ x.position) :
      (placesOf '}' xs).countP (s.isStrayAt p) = 0 := by
    rw [List.countP_eq_zero]
    intro q hq
    rcases hxs _ (mem_placesOf.1 hq) with hline | hle
    · simp [isStrayAt, hline]
    · simp [isStrayAt, not_lt_of_ge hle]
  rw [strayBefore, hspots, placesOf_append, placesOf_append, List.countP_append,
    List.countP_append, hnone (fun x hx => Or.inl (Nat.ne_of_lt (habove x hx))),
    hnone (fun x hx => Or.inr (hafter x hx)), Nat.zero_add, Nat.add_zero]
  apply List.countP_congr
  intro q hq
  obtain ⟨hline, hlt⟩ := hbefore _ (mem_placesOf.1 hq)
  simp only at hline hlt
  -- the pairs above and behind end elsewhere
  have habove' : q ∉ (pairBraces [] above).map Prod.snd := by
    intro hmem
    obtain ⟨pair, hpair, rfl⟩ := List.mem_map.1 hmem
    exact Nat.ne_of_lt (habove _ (mem_pairBraces hpair).2) hline
  have hafter' : q ∉ (pairBraces (pendingAfter [] (above ++ before)) after).map Prod.snd := by
    intro hmem
    obtain ⟨pair, hpair, rfl⟩ := List.mem_map.1 hmem
    exact not_lt_of_ge (hafter _ (mem_pairBraces hpair).2) hlt
  simp only [isStrayAt, hpairs, List.map_append, List.mem_append, hline, hlt, habove', hafter',
    decide_true, Bool.true_and, false_or, or_false]

end

end Source

/-! ### The depth before a position -/

namespace Source

section

variable {text : List Char} {p : Position} {l : Line} (hl : (scan text).line? p.line = some l)
  (hcolumn : p.column ≤ l.length)

include hl hcolumn

/-- What is open at a position is what the lines above leave pending, and what its own adds. -/
theorem openBefore_scan : (scan text).openBefore p =
    (pendingAfter (pendingAfter [] (spotsOfLines 0 ((scan text).lines.take p.line)))
      (spotsOfCells p.line 0 (l.cells.take p.column))).length := by
  rw [← pendingAfter_append]
  obtain ⟨before, hspots, hbefore, hfrom⟩ := spots_eq_append ⟨l, hl, hcolumn⟩
  rw [spots_eq_above hl hcolumn] at hspots
  rw [List.append_cancel_right hspots]
  exact openBefore_eq_length (isPaired_scan text) (by rw [spots_eq_above hl hcolumn, hspots])
    hbefore hfrom

/-- The stray closing braces of a line among the pairs of the line alone. -/
theorem strayBefore_scan : (scan text).strayBefore p =
    (placesOf '}' (spotsOfCells p.line 0 (l.cells.take p.column))).countP fun q =>
      decide (q ∉ (pairBraces (pendingAfter [] (spotsOfLines 0 ((scan text).lines.take p.line)))
        (spotsOfCells p.line 0 (l.cells.take p.column))).map Prod.snd) := by
  refine strayBefore_eq_countP (isPaired_scan text) (spots_eq_above hl hcolumn) ?_ ?_ ?_
  · intro x hx
    have hline := line_of_mem_spotsOfLines hx
    have hlength := List.length_take_le p.line (scan text).lines
    omega
  · intro x hx
    obtain ⟨k, hk, hposition⟩ := mem_spotsOfCells.1 hx
    have hlt := (List.getElem?_eq_some_iff.1 hk).1
    rw [List.length_take] at hlt
    rw [hposition, Position.lt_iff]
    exact ⟨rfl, Or.inr ⟨rfl, by simp only; omega⟩⟩
  · intro x hx
    exact ((mem_spotsFrom_iff ⟨l, hl, hcolumn⟩).1 hx).2

/--
The number of open braces at a position.  Every closing brace of its line counts in the balance, so
that each stray one has to be added again.
-/
theorem openBefore_eq_depth : ((scan text).openBefore p : Int) =
    l.startDepth + braceBalance (l.cells.take p.column) + (scan text).strayBefore p := by
  have hnodup : ((spotsOfCells p.line 0 (l.cells.take p.column)).map Spot.position).Nodup := by
    rw [List.Nodup, List.pairwise_map]
    exact (spotsOfCells_pairwise p.line 0 _).imp fun h => ne_of_lt h
  have hlength := pendingAfter_length
    (pendingAfter [] (spotsOfLines 0 ((scan text).lines.take p.line))) hnodup
  rw [← openBefore_scan hl hcolumn, ← strayBefore_scan hl hcolumn,
    ← startDepth_eq_length hl] at hlength
  rw [braceBalance_eq p.line 0]
  omega

end

/-- The line below starts with the braces that are open at the end of a line. -/
theorem startDepth_succ {text : List Char} {n : Nat} {l below : Line}
    (hl : (scan text).line? n = some l) (hbelow : (scan text).line? (n + 1) = some below) :
    below.startDepth = (scan text).openBefore ⟨n, l.length⟩ := by
  have hlt : n < (scan text).lines.length := line_lt_of_line? hl
  have htake : (scan text).lines.take (n + 1) = (scan text).lines.take n ++ [l] := by
    rw [List.take_add_one, show (scan text).lines[n]? = some l from hl]
    rfl
  rw [startDepth_eq_length hbelow, openBefore_scan hl (Nat.le_refl _), htake, spotsOfLines_append,
    pendingAfter_append, List.length_take, Nat.min_eq_left (Nat.le_of_lt hlt), Nat.zero_add]
  simp only [spotsOfLines, Line.spotsFrom_eq, List.append_nil, List.drop_zero,
    pendingAfter_append, pendingAfter_breakSpot, Line.length, List.take_length]

end Source

/--
The depth before a position is the number of braces that are open there less that of the stray
closing braces before it on its line.  So the two agree exactly if there is no stray brace, or no
open one; and every line starts with the braces that are open at the end of the line above.
-/
theorem depthBefore_eq_openBefore_sub (text : List Char) :
    (∀ p, (Source.scan text).Reaches p →
      (Source.scan text).depthBefore p =
        (Source.scan text).openBefore p - (Source.scan text).strayBefore p ∧
      ((Source.scan text).depthBefore p = (Source.scan text).openBefore p ↔
        (Source.scan text).strayBefore p = 0 ∨ (Source.scan text).openBefore p = 0)) ∧
    ∀ n l below, (Source.scan text).line? n = some l →
      (Source.scan text).line? (n + 1) = some below →
        below.startDepth = (Source.scan text).openBefore ⟨n, l.length⟩ := by
  refine ⟨?_, fun n l below => Source.startDepth_succ⟩
  rintro p ⟨l, hl, hcolumn⟩
  have hopen := Source.openBefore_eq_depth hl hcolumn
  have hdepth : (Source.scan text).depthBefore p =
      (Source.scan text).openBefore p - (Source.scan text).strayBefore p := by
    rw [Source.depthBefore, hl]
    simp only
    omega
  refine ⟨hdepth, ?_⟩
  rw [hdepth]
  omega

/-- A brace that is opened behind a stray one, with a line below. -/
def strayThenOpen : List Char :=
  "\x7d \x7b\nx".toList

/-- The stray brace takes the open one away at the end of its line, but not from the line below. -/
theorem depthBefore_eq_openBefore_sub_strayThenOpen :
    (Source.scan strayThenOpen).Reaches ⟨0, 3⟩ ∧
    (Source.scan strayThenOpen).openBefore ⟨0, 3⟩ = 1 ∧
    (Source.scan strayThenOpen).strayBefore ⟨0, 3⟩ = 1 ∧
    (Source.scan strayThenOpen).depthBefore ⟨0, 3⟩ = 0 ∧
    (Source.scan strayThenOpen).line? 1 = some ⟨[⟨'x', .code⟩], 1⟩ := by
  have hreaches : (Source.scan strayThenOpen).Reaches ⟨0, 3⟩ :=
    ⟨⟨[⟨'}', .code⟩, ⟨' ', .code⟩, ⟨'{', .code⟩], 0⟩, by decide +kernel, by decide⟩
  have hopen : (Source.scan strayThenOpen).openBefore ⟨0, 3⟩ = 1 := by decide +kernel
  have hstray : (Source.scan strayThenOpen).strayBefore ⟨0, 3⟩ = 1 := by decide +kernel
  refine ⟨hreaches, hopen, hstray, ?_, by decide +kernel⟩
  rw [((depthBefore_eq_openBefore_sub strayThenOpen).1 _ hreaches).1, hopen, hstray]

end ScriptOutline
