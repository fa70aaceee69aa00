/-
**What the contents of literals have to do with declarations.**

Two texts are twins if they differ in nothing but characters strictly inside literals.  Twins have
the same declarations up to three things, which are read off plain text and not off the code: the
first `:=` of a segment may stand inside a literal; a literal that its line leaves open may end in a
blank or a marker; and an expression may end inside a literal that is left open.

Main definitions:

* `Cell.IsTwin`, `Twins` — texts that differ strictly inside literals only;
* `Declaration.SameFrame`, `Declaration.SameParameters` — what two declarations have in common;
* `Source.SealsParameters` — no literal in a list of parameters is mistaken for something else;
* `Source.isInsideBefore` — a position behind a character that is strictly inside a literal.

Main results:

* `redacted_eq_of_twins` — twins are the same redacted;
* `arrowStop_of_redacted_eq` — of two expressions that are the same redacted one ends inside a
  literal, or both end at the same place;
* `declaration?_of_twins` — **what twins declare**.
-/

import Mathlib.Data.List.Forall2
import ScriptOutline.Proofs.RedactedDeclarations
import ScriptOutline.Proofs.RedactedParameters

set_option relaxedAutoImplicit false
set_option autoImplicit false

namespace ScriptOutline

/-! ### Twins -/

/-- Two cells of one region with the same character, unless both are strictly inside a literal. -/
def Cell.IsTwin (c d : Cell) : Prop :=
  c.region = d.region ∧ (c.char = d.char ∨ c.isInside = true ∧ d.isInside = true)

instance (c d : Cell) : Decidable (c.IsTwin d) :=
  inferInstanceAs (Decidable (_ ∧ _))

/-- Two texts with the same lines, but for the characters strictly inside their literals. -/
def Twins (a b : List Char) : Prop :=
  List.Forall₂ (fun l m => List.Forall₂ Cell.IsTwin l.cells m.cells) (Source.scan a).lines
    (Source.scan b).lines

instance (a b : List Char) : Decidable (Twins a b) :=
  inferInstanceAs (Decidable (List.Forall₂ _ _ _))

theorem Cell.redacted_eq_of_isTwin {c d : Cell} (h : c.IsTwin d) : c.redacted = d.redacted := by
  obtain ⟨char, region⟩ := c
  obtain ⟨char', region'⟩ := d
  obtain ⟨hregion, hchar | ⟨hc, hd⟩⟩ := h
  · simp only at hregion hchar
    rw [hregion, hchar]
  · simp only at hregion
    rw [redacted_of_isInside hc, redacted_of_isInside hd, hregion]

theorem map_redacted_of_twins {xs ys : List Cell} (h : List.Forall₂ Cell.IsTwin xs ys) :
    xs.map Cell.redacted = ys.map Cell.redacted := by
  induction h with
  | nil => rfl
  | cons hc _ ih => rw [List.map_cons, List.map_cons, Cell.redacted_eq_of_isTwin hc, ih]

theorem readLines_of_twins {mode mode' : Mode} {depth : Nat} {xs ys : List (List Char)}
    (h : List.Forall₂ (fun l m => List.Forall₂ Cell.IsTwin l.cells m.cells)
      (readLines mode depth xs) (readLines mode' depth ys)) :
    (readLines mode depth xs).map Line.redacted =
      (readLines mode' depth ys).map Line.redacted := by
  induction xs generalizing mode mode' depth ys with
  | nil =>
      cases ys with
      | nil => rfl
      | cons y ys => exact absurd h (by simp [readLines])
  | cons x xs ih =>
      cases ys with
      | nil => exact absurd h (by simp [readLines])
      | cons y ys =>
          simp only [readLines, List.forall₂_cons] at h
          have hcells := map_redacted_of_twins h.1
          have hdepth : depthAfter depth (mode.read x).1 = depthAfter depth (mode'.read y).1 := by
            rw [← depthAfter_redacted, hcells, depthAfter_redacted]
          simp only [readLines, List.map_cons, Line.redacted, hcells]
          rw [hdepth] at h ⊢
          exact congrArg _ (ih h.2)

/-- Twins are the same redacted. -/
theorem redacted_eq_of_twins {a b : List Char} (h : Twins a b) :
    (Source.scan a).redacted = (Source.scan b).redacted := by
  have hlines : (Source.scan a).lines.map Line.redacted =
      (Source.scan b).lines.map Line.redacted :=
    readLines_of_twins h
  have hpairs (text : List Char) : (Source.scan text).bracePairs =
      pairBraces [] (spotsOfLines 0 ((Source.scan text).lines.map Line.redacted)) := by
    rw [spotsOfLines_redacted 0 (Source.hasNoBreaks_scan text), pairBraces_redacted]
    rfl
  rw [Source.redacted, Source.redacted, hpairs a, hpairs b, hlines]

/-! ### Literals on the way -/

/-- What a walk over a text sees at a spot: its cell, or a space for a line break. -/
def Spot.cellOrSpace (x : Spot) : Cell :=
  if x.isBreak then Cell.space else x.cell

theorem isChain_opens_append {p : Char → Bool} {c d : Cell} {xs ys : List Cell}
    (hxs : (c :: xs).IsChain (Opens p)) (hd : d.isLiteral = false)
    (hys : (d :: ys).IsChain (Opens p)) : (c :: (xs ++ d :: ys)).IsChain (Opens p) := by
  induction xs generalizing c with
  | nil => exact List.isChain_cons_cons.2 ⟨fun h => absurd h (by simp [hd]), hys⟩
  | cons x xs ih =>
      rw [List.isChain_cons_cons] at hxs
      exact List.isChain_cons_cons.2 ⟨hxs.1, ih hxs.2⟩

theorem map_cellOrSpace_spotsOfCells (n column : Nat) {cells : List Cell}
    (h : ∀ c ∈ cells, c.char ≠ '\n') :
    (spotsOfCells n column cells).map Spot.cellOrSpace = cells := by
  induction cells generalizing column with
  | nil => rfl
  | cons c rest ih =>
      obtain ⟨hc, hrest⟩ := List.forall_mem_cons.1 h
      simp [spotsOfCells, ih _ hrest, Spot.cellOrSpace, Spot.isBreak, hc]

theorem Line.map_cellOrSpace {l : Line} (h : '\n' ∉ l.text) (n column : Nat) :
    (l.spotsFrom n column).map Spot.cellOrSpace = l.cells.drop column ++ [Cell.space] := by
  have hcells : ∀ c ∈ l.cells.drop column, c.char ≠ '\n' := by
    intro c hc heq
    exact h (List.mem_map.2 ⟨c, List.mem_of_mem_drop hc, heq⟩)
  rw [spotsFrom_eq, List.map_append, map_cellOrSpace_spotsOfCells n column hcells]
  rfl

theorem isChain_opens_spotsOfLines (n : Nat) {lines : List Line}
    (hbreaks : ∀ l ∈ lines, '\n' ∉ l.text) (h : ∀ l ∈ lines, l.OpensLiterals) :
    (Cell.space :: (spotsOfLines n lines).map Spot.cellOrSpace).IsChain (Opens isQuoteMark) := by
  induction lines generalizing n with
  | nil => exact List.isChain_singleton _
  | cons l rest ih =>
      obtain ⟨hl, hrest⟩ := List.forall_mem_cons.1 hbreaks
      obtain ⟨hopens, hopensRest⟩ := List.forall_mem_cons.1 h
      simp only [spotsOfLines, List.map_append, l.map_cellOrSpace hl, List.drop_zero,
        List.append_assoc, List.singleton_append]
      exact isChain_opens_append hopens rfl (ih _ hrest hopensRest)

/-- Behind a cell of the code a literal starts with a quote. -/
theorem Source.isChain_opens_spotsFrom {s : Source} (hs : s.HasNoBreaks) (hopens : s.OpensLiterals)
    {p : Position} {l : Line} {c : Cell} (hl : s.line? p.line = some l)
    (hc : l.cells[p.column]? = some c) (hcode : c.isCode = true) :
    (Cell.space :: (s.spotsFrom p.next).map Spot.cellOrSpace).IsChain (Opens isQuoteMark) := by
  obtain ⟨hlt, hget⟩ := List.getElem?_eq_some_iff.1 hc
  have hmem := List.mem_of_getElem? hl
  have hsplit : l.cells = l.cells.take p.column ++ c :: l.cells.drop (p.column + 1) := by
    rw [← hget, ← List.drop_eq_getElem_cons hlt, List.take_append_drop]
  have hline := hopens l hmem
  rw [Line.OpensLiterals, hsplit] at hline
  have hbehind := isChain_opens_of_append (e := Cell.space) hline (Cell.not_literal_of_isCode hcode)
  have hnext : s.line? p.next.line = some l := hl
  rw [spotsFrom_eq hnext, List.map_append, Line.map_cellOrSpace (hs l hmem), List.append_assoc,
    List.singleton_append]
  -- the line break is a space to the walk, so that the lines below start outside of literals
  refine isChain_opens_append hbehind rfl (isChain_opens_spotsOfLines _ ?_ ?_)
  · exact fun m hm => hs m (List.mem_of_mem_drop hm)
  · exact fun m hm => hopens m (List.mem_of_mem_drop hm)

/-- In a list of parameters a literal starts with a quote if it does on the way to its end. -/
theorem isChain_opens_cellsToClose? {lastLine depth : Nat} {c : Cell} {spots : List Spot}
    {cells : List Cell} {p : Position} (h : cellsToClose? lastLine depth spots = some (cells, p))
    (hopens : (c :: spots.map Spot.cellOrSpace).IsChain (Opens isQuoteMark)) :
    (c :: cells).IsChain (Opens isQuoteMark) := by
  induction spots generalizing depth c cells p with
  | nil => simp [cellsToClose?] at h
  | cons x rest ih =>
      rw [List.map_cons, List.isChain_cons_cons] at hopens
      simp only [cellsToClose?] at h
      split at h
      · simp at h
      · split at h
        · next hidle =>
            obtain ⟨⟨inner, p'⟩, hrest, heq⟩ := Option.map_eq_some_iff.1 h
            simp only [Prod.mk.injEq] at heq
            -- a break or a comment leaves a space in the list
            have hx : x.cellOrSpace.isLiteral = false := by
              unfold Spot.cellOrSpace
              split
              · rfl
              · next hbreak =>
                  simp only [hbreak, Bool.false_or] at hidle
                  exact Cell.not_literal_of_isComment hidle
            rw [← heq.1, List.isChain_cons_cons]
            exact ⟨fun hspace => absurd hspace (by decide),
              ih hrest (isChain_opens_of_not_literal hopens.2 hx)⟩
        · next hidle =>
            split at h
            · split at h
              · simp only [Option.some.injEq, Prod.mk.injEq] at h
                rw [← h.1]
                exact List.isChain_singleton c
              · simp at h
            · obtain ⟨⟨inner, p'⟩, hrest, heq⟩ := Option.map_eq_some_iff.1 h
              simp only [Prod.mk.injEq] at heq
              have hx : x.cellOrSpace = x.cell := by
                simp only [Bool.or_eq_true, not_or, Bool.not_eq_true] at hidle
                simp [Spot.cellOrSpace, hidle.1]
              rw [hx] at hopens
              rw [← heq.1, List.isChain_cons_cons]
              exact ⟨hopens.1, ih hrest hopens.2⟩

/-! ### Expressions -/

/-- Whether a spot is strictly inside a literal. -/
def Spot.isInside (x : Spot) : Bool :=
  !x.isBreak && x.cell.isInside

namespace Spot

variable {x : Spot}

theorem isInside_redacted (x : Spot) : x.redacted.isInside = x.isInside := by
  cases h : x.isBreak with
  | true => rw [redacted_of_isBreak x h]
  | false =>
      have hbreak := x.isBreak_redacted
      rw [h] at hbreak
      simp only [isInside, hbreak, h]
      rw [redacted_of_not_isBreak x h, Cell.isInside_redacted]

theorem redacted_of_not_isInside (h : x.isInside = false) : x.redacted = x := by
  cases hbreak : x.isBreak with
  | true => exact redacted_of_isBreak x hbreak
  | false =>
      have hcell : x.cell.redacted = x.cell := by
        simp only [isInside, hbreak, Bool.not_false, Bool.true_and] at h
        simp [Cell.redacted, h]
      rw [redacted_of_not_isBreak x hbreak, hcell]

/-- What is inside a literal is part of it, and no quote. -/
theorem of_isInside (h : x.isInside = true) :
    x.isBreak = false ∧ x.cell.isLiteral = true ∧ isQuoteMark x.cell.char = false := by
  simp only [isInside, Cell.isInside, Bool.and_eq_true, Bool.not_eq_true'] at h
  exact ⟨h.1, h.2.1.1, h.2.1.2⟩

/-- A blank of a literal is inside of it. -/
theorem isInside_of_isBlank (hbreak : x.isBreak = false) (hliteral : x.cell.isLiteral = true)
    (hblank : isBlank x.cell.char = true) : x.isInside = true := by
  have hescape : x.cell.char ≠ Mode.escape := by
    intro heq
    rw [heq] at hblank
    exact absurd hblank (by decide)
  simp [isInside, Cell.isInside, hbreak, hliteral, not_isQuoteMark_of_isBlank hblank, hescape]

end Spot

/-- Inside a literal an expression goes on, up to what is no blank. -/
theorem arrowStop_of_isInside {x : Spot} (h : x.isInside = true) (finish : Position) (depth : Nat)
    (last : Option Position) (rest : List Spot) :
    arrowStop finish depth last (x :: rest) =
      arrowStop finish depth (if isBlank x.cell.char then last else some x.position.next) rest := by
  obtain ⟨hbreak, hliteral, -⟩ := Spot.of_isInside h
  have hcomment := Cell.not_isComment_of_isLiteral hliteral
  have hcode := Cell.not_isCode_of_isLiteral hliteral
  have hdepth : bracketStep depth x.cell = depth := by
    simp [bracketStep, Cell.isOpener, Cell.isCloser, hcode]
  simp only [arrowStop, hbreak, hcomment, Cell.isCloser, hcode, hdepth, Bool.false_or,
    Bool.false_and, Bool.and_false, Bool.false_eq_true, if_false]
  split <;> rfl

/-- Two ends that are the same, or one of them has a certain property. -/
def EndsAlike (A B : Position → Prop) (last last' : Option Position) : Prop :=
  last.isSome = last'.isSome ∧ (last = last' ∨ (∃ p ∈ last, A p) ∨ ∃ p ∈ last', B p)

theorem EndsAlike.getD {A B : Position → Prop} {last last' : Option Position}
    (h : EndsAlike A B last last') (p : Position) :
    last.getD p = last'.getD p ∨ A (last.getD p) ∨ B (last'.getD p) := by
  obtain ⟨-, rfl | ⟨q, hq, hA⟩ | ⟨q, hq, hB⟩⟩ := h
  · exact Or.inl rfl
  · rw [Option.mem_def.1 hq]
    exact Or.inr (Or.inl hA)
  · rw [Option.mem_def.1 hq]
    exact Or.inr (Or.inr hB)

/-- Each end may move on to a place that has both properties. -/
theorem EndsAlike.advance {A B : Position → Prop} {last last' : Option Position}
    (h : EndsAlike A B last last') (hsome : last.isSome = true) {p : Position} (hA : A p) (hB : B p)
    (stays stays' : Bool) :
    EndsAlike A B (if stays then last else some p) (if stays' then last' else some p) := by
  have hsome' : last'.isSome = true := h.1 ▸ hsome
  cases stays with
  | true =>
      cases stays' with
      | true => exact h
      | false => exact ⟨hsome, Or.inr (Or.inr ⟨p, rfl, hB⟩)⟩
  | false =>
      cases stays' with
      | true => exact ⟨hsome'.symm, Or.inr (Or.inl ⟨p, rfl, hA⟩)⟩
      | false => exact ⟨rfl, Or.inl rfl⟩

/--
Of two expressions that are the same redacted one ends inside a literal, or both end at the same
place.  `A` and `B` hold of the ends of what is inside literals of the first and of the second.
-/
theorem arrowStop_of_redacted_eq {A B : Position → Prop} (finish : Position) (depth : Nat)
    {xs ys : List Spot} (h : xs.map Spot.redacted = ys.map Spot.redacted) {c : Cell}
    (hopens : (c :: xs.map Spot.cellOrSpace).IsChain (Opens isQuoteMark))
    (hA : ∀ x ∈ xs, x.isInside = true → A x.position.next)
    (hB : ∀ y ∈ ys, y.isInside = true → B y.position.next) {last last' : Option Position}
    (hlast : EndsAlike A B last last') (hc : c.isLiteral = true → last.isSome = true) :
    arrowStop finish depth last xs = arrowStop finish depth last' ys ∨
      A (arrowStop finish depth last xs) ∨ B (arrowStop finish depth last' ys) := by
  induction xs generalizing depth ys c last last' with
  | nil =>
      obtain rfl : ys = [] := by simpa using h.symm
      exact hlast.getD finish
  | cons x xs ih =>
      obtain ⟨y, ys, rfl, hy, hys⟩ := List.map_eq_cons_iff.1 h.symm
      rw [List.map_cons, List.isChain_cons_cons] at hopens
      obtain ⟨hAx, hAxs⟩ := List.forall_mem_cons.1 hA
      obtain ⟨hBy, hBys⟩ := List.forall_mem_cons.1 hB
      have hposition : y.position = x.position := by
        rw [← Spot.redacted_position, hy, Spot.redacted_position]
      have hinside : y.isInside = x.isInside := by
        rw [← Spot.isInside_redacted, hy, Spot.isInside_redacted]
      have hstep (depth' : Nat) {l l' : Option Position} (hl : EndsAlike A B l l')
          (hx : x.cellOrSpace.isLiteral = true → l.isSome = true) :=
        ih depth' hys.symm hopens.2 hAxs hBys hl hx
      cases hx : x.isInside with
      | true =>
          obtain ⟨hbreak, hliteral, hquote⟩ := Spot.of_isInside hx
          have hcell : x.cellOrSpace = x.cell := by simp [Spot.cellOrSpace, hbreak]
          rw [hcell] at hopens
          -- the literal started before, with a quote, so that both expressions have begun
          have hsome : last.isSome = true := by
            rcases hopens.1 hliteral with hbefore | hmark
            · exact hc hbefore
            · rw [hquote] at hmark
              exact Bool.noConfusion hmark
          have hAp := hAx hx
          have hBp := hBy (hinside.trans hx)
          rw [hposition] at hBp
          rw [arrowStop_of_isInside hx, arrowStop_of_isInside (hinside.trans hx), hposition]
          refine hstep depth (hlast.advance hsome hAp hBp _ _) fun _ => ?_
          split
          · exact hsome
          · rfl
      | false =>
          have hxy : y = x := by
            rw [← Spot.redacted_of_not_isInside (hinside.trans hx), hy,
              Spot.redacted_of_not_isInside hx]
          rw [hxy]
          -- outside of literals both walks see the same spot and take the same branch
          simp only [arrowStop]
          split
          · next hbreak =>
              have hspace : x.cellOrSpace.isLiteral = true → last.isSome = true := by
                intro hliteral
                simp only [Spot.cellOrSpace, hbreak, if_true] at hliteral
                exact absurd hliteral (by decide)
              cases last with
              | none =>
                  obtain rfl : last' = none := by simpa using hlast.1.symm
                  cases depth <;> exact hstep _ hlast hspace
              | some stop =>
                  obtain ⟨stop', rfl⟩ := Option.isSome_iff_exists.1 hlast.1.symm
                  cases depth with
                  | zero => exact hlast.getD finish
                  | succ depth => exact hstep _ hlast hspace
          · next hbreak =>
              have hcell : x.cellOrSpace = x.cell := by simp [Spot.cellOrSpace, hbreak]
              split
              · next hidle =>
                  refine hstep depth hlast fun hliteral => ?_
                  rw [hcell] at hliteral
                  have hblank : isBlank x.cell.char = true := by
                    rcases Bool.or_eq_true_iff.1 hidle with hcomment | hblank
                    · rw [Cell.not_literal_of_isComment hcomment] at hliteral
                      exact Bool.noConfusion hliteral
                    · exact hblank
                  have hnot := Spot.isInside_of_isBlank (by simpa using hbreak) hliteral hblank
                  rw [hx] at hnot
                  exact Bool.noConfusion hnot
              · split
                · exact hlast.getD x.position
                · exact hstep _ ⟨rfl, Or.inl rfl⟩ fun _ => rfl

/-! ### Bodies -/

/-- The expression of a body is read from just behind its arrow. -/
theorem arrow_of_bodyFrom? {s : Source} {line : Line} {n m : Nat} {cells : List Cell}
    {start stop : Position} (hsuffix : cells <:+ line.cells)
    (h : bodyFrom? s line n cells = some (.arrow start stop, m)) :
    ∃ column, start = Position.next ⟨n, column⟩ ∧ line.cells[column]? = some ⟨'>', .code⟩ := by
  have hbelow : (nextBrace? s n).map (fun o => (blockAt s o, o.line)) ≠
      some (.arrow start stop, m) := by
    cases nextBrace? s n <;> simp [blockAt]
  obtain ⟨before, hcells⟩ := hsuffix
  unfold bodyFrom? at h
  split at h
  · exact absurd h hbelow
  · next c rest =>
      split at h
      · exact absurd h hbelow
      · split at h
        · simp [blockAt] at h
        · split at h
          · next harrow =>
              obtain ⟨after, hafter⟩ := Option.isSome_iff_exists.1 harrow
              rw [afterPair?_eq_some hafter] at h hcells
              simp only [arrowAt, Option.some.injEq, Prod.mk.injEq, Body.arrow.injEq] at h
              have hlength : line.length - (after.length + 2) = before.length := by
                rw [Line.length, ← hcells]
                simp
              refine ⟨before.length + 1, ?_, ?_⟩
              · rw [← h.1.1]
                simp only [Position.next, List.length_cons, hlength]
              · rw [← hcells, List.getElem?_append_right (Nat.le_succ _)]
                simp
          · simp at h

/-- Behind the mark of an arrow stands the expression that a line declares a function with. -/
theorem arrow_of_declaration? {s : Source} {n : Nat} {d : Declaration} {start stop : Position}
    (hd : declaration? s n = some d) (hbody : d.body = .arrow start stop) :
    ∃ (p : Position) (l : Line), start = p.next ∧ s.line? p.line = some l ∧
      l.cells[p.column]? = some ⟨'>', .code⟩ := by
  obtain ⟨listed, tail, -, htail, rfl⟩ := declaration?_eq_some_iff.1 hd
  simp only [tail?, Option.bind_eq_bind, Option.bind_eq_some_iff] at htail
  obtain ⟨line, hline, ⟨type, cells⟩, htype, ⟨body, headerLine⟩, hfrom, ht⟩ := htail
  simp only [Option.pure_def, Option.some.injEq] at ht
  rw [← ht] at hbody
  have harrow : body = .arrow start stop := hbody
  have hsuffix : cells <:+ line.cells :=
    (readReturnType?_suffix htype).trans ((dropBlankCode_suffix _).trans (List.drop_suffix _ _))
  rw [harrow] at hfrom
  obtain ⟨column, hstart, hcell⟩ := arrow_of_bodyFrom? hsuffix hfrom
  exact ⟨⟨listed.closing.line, column⟩, line, hstart, hline, hcell⟩

/-- Whether the character before a position is strictly inside a literal. -/
def Source.isInsideBefore (s : Source) (p : Position) : Bool :=
  (s.line? p.line).any fun l => (l.cells.take p.column).getLast?.any Cell.isInside

theorem Source.isInsideBefore_next {s : Source} {p : Position} (hp : s.Reaches p) {x : Spot}
    (hx : x ∈ s.spotsFrom p) (hinside : x.isInside = true) :
    s.isInsideBefore x.position.next = true := by
  obtain ⟨l, hl, hcell | hbreak⟩ := mem_spots_iff.1 ((mem_spotsFrom_iff hp).1 hx).1
  · obtain ⟨-, hliteral⟩ := Bool.and_eq_true_iff.1 hinside
    simp only [isInsideBefore, Position.next, hl, Option.any_some]
    rw [List.take_add_one, hcell, Option.toList_some, List.getLast?_concat, Option.any_some,
      hliteral]
  · rw [hbreak] at hinside
    simp [Spot.isInside, Spot.isBreak, Line.breakSpot] at hinside

/-- Two bodies of one kind that start at the same place; two blocks are the same. -/
inductive Body.SameStart : Body → Body → Prop
  | block (opening : Position) (closing : Option Position) :
    SameStart (.block opening closing) (.block opening closing)
  | arrow (start stop stop' : Position) : SameStart (.arrow start stop) (.arrow start stop')

/-- An expression in a text ends where it is read to end. -/
theorem stop_of_isAt {s : Source} {start stop : Position} (h : (Body.arrow start stop).IsAt s) :
    s.Reaches start ∧ stop = arrowStop s.endPosition 0 none (s.spotsFrom start) := by
  rcases h with ⟨-, hblock⟩ | ⟨hreaches, harrow⟩
  · simp [blockAt] at hblock
  · simp only [arrowAt, Body.arrow.injEq] at harrow
    exact ⟨hreaches, harrow.2⟩

section

variable {a b : List Char} (h : Twins a b) {n : Nat} {d e : Declaration}
  (hd : declaration? (Source.scan a) n = some d) (he : declaration? (Source.scan b) n = some e)

include h hd he

/-- Of two expressions of twins one ends inside a literal, or both end at the same place. -/
theorem arrow_stop_of_twins {start stop stop' : Position} (hbody : d.body = .arrow start stop)
    (hbody' : e.body = .arrow start stop') :
    stop = stop' ∨ (Source.scan a).isInsideBefore stop = true ∨
      (Source.scan b).isInsideBefore stop' = true := by
  have hredacted := redacted_eq_of_twins h
  have hat := (declaration?_placed hd).1.body_isAt
  have hat' := (declaration?_placed he).1.body_isAt
  rw [hbody] at hat
  rw [hbody'] at hat'
  obtain ⟨hreaches, hstop⟩ := stop_of_isAt hat
  obtain ⟨hreaches', hstop'⟩ := stop_of_isAt hat'
  obtain ⟨p, l, hstart, hl, hcell⟩ := arrow_of_declaration? hd hbody
  have hspots : ((Source.scan a).spotsFrom start).map Spot.redacted =
      ((Source.scan b).spotsFrom start).map Spot.redacted := by
    rw [← Source.spotsFrom_redacted (Source.hasNoBreaks_scan a), hredacted,
      Source.spotsFrom_redacted (Source.hasNoBreaks_scan b)]
  have hfinish : (Source.scan b).endPosition = (Source.scan a).endPosition := by
    rw [← Source.endPosition_redacted, ← hredacted, Source.endPosition_redacted]
  -- the mark of the arrow is code, so that the expression starts outside of literals
  have hopens := Source.isChain_opens_spotsFrom (Source.hasNoBreaks_scan a)
    (Source.opensLiterals_scan a) hl hcell rfl
  rw [← hstart] at hopens
  rw [hstop, hstop', hfinish]
  exact arrowStop_of_redacted_eq (A := fun q => (Source.scan a).isInsideBefore q = true)
    (B := fun q => (Source.scan b).isInsideBefore q = true) _ 0 hspots hopens
    (fun x hx => Source.isInsideBefore_next hreaches hx)
    (fun y hy => Source.isInsideBefore_next hreaches' hy) ⟨rfl, Or.inl rfl⟩
    (fun hspace => absurd hspace (by decide))

/-- The bodies that twins declare. -/
theorem body_of_twins (hbodies : d.body.reread (Source.scan a).redacted =
      e.body.reread (Source.scan a).redacted) :
    d.body.SameStart e.body ∧ ((Source.scan a).isInsideBefore (d.stop (Source.scan a)) = false →
      (Source.scan b).isInsideBefore (e.stop (Source.scan b)) = false → d.body = e.body) := by
  have hpairs : (Source.scan a).redacted.bracePairs = (Source.scan b).redacted.bracePairs := by
    rw [redacted_eq_of_twins h]
  have hat := (declaration?_placed hd).1.body_isAt
  have hat' := (declaration?_placed he).1.body_isAt
  cases hbody : d.body with
  | block opening closing =>
      cases hbody' : e.body with
      | block opening' closing' =>
          -- the brace that closes a block is read off the brace pairs, which twins share
          have hclosing {s : Source} {o : Position} {c : Option Position}
              (hs : (Body.block o c).IsAt s) : c = s.matchingBrace? o := by
            rcases hs with ⟨-, hblock⟩ | ⟨-, harrow⟩
            · simp only [blockAt, Body.block.injEq] at hblock
              exact hblock.2
            · simp [arrowAt] at harrow
          rw [hbody] at hat hbodies
          rw [hbody'] at hat' hbodies
          simp only [Body.reread, blockAt, Body.block.injEq] at hbodies
          have hsame : closing = closing' := by
            rw [hclosing hat, hclosing hat', hbodies.1]
            exact congrArg (List.lookup opening') hpairs
          rw [hbodies.1, hsame]
          exact ⟨.block opening' closing', fun _ _ => rfl⟩
      | arrow start' stop' =>
          simp [hbody, hbody', Body.reread, blockAt, arrowAt] at hbodies
  | arrow start stop =>
      cases hbody' : e.body with
      | block opening' closing' =>
          simp [hbody, hbody', Body.reread, blockAt, arrowAt] at hbodies
      | arrow start' stop' =>
          simp only [hbody, hbody', Body.reread, arrowAt, Body.arrow.injEq] at hbodies
          obtain rfl := hbodies.1
          refine ⟨.arrow start stop stop', fun hnot hnot' => ?_⟩
          simp only [Declaration.stop, hbody] at hnot
          simp only [Declaration.stop, hbody'] at hnot'
          rcases arrow_stop_of_twins h hd he hbody hbody' with heq | hinside | hinside
          · rw [heq]
          · rw [hnot] at hinside
            exact Bool.noConfusion hinside
          · rw [hnot'] at hinside
            exact Bool.noConfusion hinside

end

/-! ### Declarations -/

/-- What two declarations share apart from their parameters and the end of an expression. -/
structure Declaration.SameFrame (d e : Declaration) : Prop where
  name : d.name = e.name
  start : d.start = e.start
  isStatic : d.isStatic = e.isStatic
  returnType : d.returnType = e.returnType
  headerLine : d.headerLine = e.headerLine
  body : d.body.SameStart e.body

/-- The same parameters, up to texts, or in both declarations a list that cannot be read. -/
def Declaration.SameParameters (d e : Declaration) : Prop :=
  d.error?.isSome = e.error?.isSome ∧
    d.parameters.map Parameter.withoutTexts = e.parameters.map Parameter.withoutTexts

/-- No literal in the list of parameters on a line is mistaken for something else. -/
def Source.SealsParameters (s : Source) (n : Nat) : Prop :=
  ∀ segment ∈ segmentsFrom 0 (s.listedCells n), IsSealed segment

instance (s : Source) (n : Nat) : Decidable (s.SealsParameters n) :=
  inferInstanceAs (Decidable (∀ segment ∈ segmentsFrom 0 (s.listedCells n), IsSealed segment))

/-- In the list of parameters on a line a literal starts with a quote. -/
theorem isChain_opens_listedCells (text : List Char) (n : Nat) :
    (Cell.space :: (Source.scan text).listedCells n).IsChain (Opens isQuoteMark) := by
  unfold Source.listedCells
  cases hlisted : listedHeader? (Source.scan text) n with
  | none => exact List.isChain_singleton _
  | some listed =>
      obtain ⟨line, hline, -, hfirst, hheader, -, hcells⟩ := listedHeader?_eq_some hlisted
      obtain ⟨before, hbefore, hplain⟩ := Header.read?_spec hheader
      have hopening := Line.code_of_firstCode? (Source.isRead_scan hline) hfirst hbefore hplain
        (by decide) (by decide)
      exact isChain_opens_cellsToClose? hcells
        (Source.isChain_opens_spotsFrom (Source.hasNoBreaks_scan text)
          (Source.opensLiterals_scan text) hline hopening rfl)

theorem sameParameters_of_toOption {d e : Declaration}
    (h : d.parameterList.toOption.map (List.map Parameter.withoutTexts) =
      e.parameterList.toOption.map (List.map Parameter.withoutTexts)) : d.SameParameters e := by
  unfold Declaration.SameParameters Declaration.error? Declaration.parameters
  cases hd : d.parameterList with
  | error x =>
      cases he : e.parameterList with
      | error y => exact ⟨rfl, rfl⟩
      | ok qs => simp [hd, he, Except.toOption] at h
  | ok ps =>
      cases he : e.parameterList with
      | error y => simp [hd, he, Except.toOption] at h
      | ok qs => exact ⟨rfl, by simpa [hd, he, Except.toOption] using h⟩

/-- Two optional values that are both related to a third. -/
theorem optionRel_of_common {α β : Type} {x y : Option α} {z : Option β} {R S : α → β → Prop}
    {T : α → α → Prop} (hx : Option.Rel R x z) (hy : Option.Rel S y z)
    (h : ∀ d e c, x = some d → y = some e → R d c → S e c → T d e) : Option.Rel T x y := by
  cases hx with
  | none =>
      cases hy
      exact .none
  | some hr =>
      cases hy with
      | some hs => exact .some (h _ _ _ rfl rfl hr hs)

/--
On each line twins declare nothing or both declare a function.  The two declarations have the same
name, start, return type and last line of the header, and bodies that start at the same place.  They
have the same parameters, up to texts, if no literal in either list is mistaken for something else,
and the same body if neither expression ends inside a literal.
-/
theorem declaration?_of_twins {a b : List Char} (h : Twins a b) (n : Nat) :
    Option.Rel
      (fun d e => d.SameFrame e ∧
        ((Source.scan a).SealsParameters n → (Source.scan b).SealsParameters n →
          d.SameParameters e) ∧
        ((Source.scan a).isInsideBefore (d.stop (Source.scan a)) = false →
          (Source.scan b).isInsideBefore (e.stop (Source.scan b)) = false → d.body = e.body))
      (declaration? (Source.scan a) n) (declaration? (Source.scan b) n) := by
  have hredacted := redacted_eq_of_twins h
  have hleft := declaration?_redacted (Source.hasNoBreaks_scan a) (Source.opensLiterals_scan a) n
  have hright := declaration?_redacted (Source.hasNoBreaks_scan b) (Source.opensLiterals_scan b) n
  rw [← hredacted] at hright
  refine optionRel_of_common hleft hright fun d e r hd he hdr her => ?_
  have hbody := body_of_twins h hd he (by rw [← hdr.body, her.body, hredacted])
  refine ⟨⟨?_, ?_, ?_, ?_, ?_, hbody.1⟩, fun hseals hseals' => ?_, hbody.2⟩
  · rw [← hdr.name, her.name]
  · rw [← hdr.start, her.start]
  · rw [← hdr.isStatic, her.isStatic]
  · rw [← hdr.returnType, her.returnType]
  · rw [← hdr.headerLine, her.headerLine]
  · refine sameParameters_of_toOption ?_
    rw [hdr.parameterList, her.parameterList,
      readParameters_redacted (isChain_opens_listedCells a n) hseals,
      readParameters_redacted (isChain_opens_listedCells b n) hseals',
      ← hdr.redactedList, her.redactedList]

/-- A function with brackets, commas and an arrow in its literals. -/
def crowdedLiterals : List Char :=
  "F(a := \"),(\", b?, c: T = '\x7b') => a . \"=> ]\"".toList

/-- The same function with something else in its literals. -/
def plainLiterals : List Char :=
  "F(a := \"one\", b?, c: T = '-') => a . \"x: y\"".toList

/-- The two declare the same, up to the texts of default values. -/
theorem declaration?_of_twins_literals :
    Twins crowdedLiterals plainLiterals ∧
    ∃ d e, declaration? (Source.scan crowdedLiterals) 0 = some d ∧
      declaration? (Source.scan plainLiterals) 0 = some e ∧
      d.SameFrame e ∧ d.SameParameters e ∧ d.body = e.body := by
  have htwins : Twins crowdedLiterals plainLiterals := by decide +kernel
  have hseals : (Source.scan crowdedLiterals).SealsParameters 0 := by decide +kernel
  have hseals' : (Source.scan plainLiterals).SealsParameters 0 := by decide +kernel
  have hends : (declaration? (Source.scan crowdedLiterals) 0).map (fun d =>
      (Source.scan crowdedLiterals).isInsideBefore (d.stop (Source.scan crowdedLiterals))) =
        some false := by decide +kernel
  have hends' : (declaration? (Source.scan plainLiterals) 0).map (fun d =>
      (Source.scan plainLiterals).isInsideBefore (d.stop (Source.scan plainLiterals))) =
        some false := by decide +kernel
  obtain ⟨d, hd, hinside⟩ := Option.map_eq_some_iff.1 hends
  obtain ⟨e, he, hinside'⟩ := Option.map_eq_some_iff.1 hends'
  have hrel := declaration?_of_twins htwins 0
  rw [hd, he] at hrel
  cases hrel with
  | some hsame =>
      exact ⟨htwins, d, e, hd, he, hsame.1, hsame.2.1 hseals hseals', hsame.2.2 hinside hinside'⟩

/--
Twins do not always declare the same: where a literal holds `:=`, a list of parameters cannot be
read that can be read without it.
-/
theorem contents_of_literals_leak :
    ¬∀ a b : List Char, Twins a b → ∀ n, Option.Rel
      (fun d e => d.SameFrame e ∧ d.SameParameters e ∧ d.body = e.body)
      (declaration? (Source.scan a) n) (declaration? (Source.scan b) n) := by
  intro hall
  have htwins : Twins "F(a = \":=\") \x7b\n\x7d".toList "F(a = \"no\") \x7b\n\x7d".toList := by
    decide +kernel
  have hrel := hall _ _ htwins 0
  have hwrong : (declaration? (Source.scan "F(a = \":=\") \x7b\n\x7d".toList) 0).map
      (fun d => d.error?.isSome) = some true := by decide +kernel
  have hright : (declaration? (Source.scan "F(a = \"no\") \x7b\n\x7d".toList) 0).map
      (fun d => d.error?.isSome) = some false := by decide +kernel
  obtain ⟨d, hd, herror⟩ := Option.map_eq_some_iff.1 hwrong
  obtain ⟨e, he, hnone⟩ := Option.map_eq_some_iff.1 hright
  rw [hd, he] at hrel
  cases hrel with
  | some hsame =>
      have hboth := hsame.2.1.1
      rw [herror, hnone] at hboth
      exact Bool.noConfusion hboth

/-- A star at the open end of a literal in a type hint is taken for a marker. -/
example : (declaration? (Source.scan "F(a: \"x*\n) \x7b\n\x7d".toList) 0).map
    (fun d => d.parameters.map Parameter.variadic) = some [true] := by decide +kernel

/-- An expression that ends inside a literal ends before the blanks at its open end. -/
example : (declaration? (Source.scan "F() => \"a ".toList) 0).map Declaration.body =
    some (.arrow ⟨0, 6⟩ ⟨0, 9⟩) := by decide +kernel

end ScriptOutline
