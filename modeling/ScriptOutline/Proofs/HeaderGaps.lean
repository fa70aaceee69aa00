/-
**What a reader of headers passes over.**

A declaration starts at the first code of its line, and its block may open with the first code below
its header.  What is passed over on the way is not only blanks and comments.  A literal is no code,
so that it is passed over where code is looked for; and whatever stands behind a comment on the last
line of the header is passed over together with the comment.  These two are all: where no literal
stands in the way and no comment hides what follows it, only blanks and comments are passed over.

Main definitions:

* `Spot.isQuoted` — a character of a literal;
* `Source.IsQuietWithin` — a stretch of nothing but blanks, comments and line breaks;
* `behindType`, `Source.headerEnd` — where a header ends before its body;
* `quotedCall`, `literalGap` — a literal before a header, and one below it.

Main results:

* `isQuiet_or_isQuoted` — what is passed over where code is looked for;
* `readReturnType?_split` — what stands before the end of a header;
* `not_isQuoted_of_isQuietWithin` — a stretch that is quiet has no part in literals;
* `not_commentHides_of_isQuietWithin` — a stretch that is quiet has nothing that a comment hides;
* `passed_over` — **what is passed over before a header and behind it**.
-/

import ScriptOutline.Proofs.ArrowWalk
import ScriptOutline.Proofs.RedactedSegments
import ScriptOutline.Proofs.UncommentedDeclarations

set_option relaxedAutoImplicit false
set_option autoImplicit false

namespace ScriptOutline

/-! ### Quiet stretches -/

/-- Whether a spot is a character of a literal. -/
def Spot.isQuoted (x : Spot) : Bool :=
  !x.isBreak && x.cell.isLiteral

/-- A stretch of a text is nothing but blanks, comments and line breaks. -/
def Source.IsQuietWithin (s : Source) (p q : Position) : Prop :=
  ∀ x ∈ s.spotsWithin p q, x.isQuiet = true

/-- Where a line has no code yet, there are only blanks, comments and literals. -/
theorem isQuiet_or_isQuoted {s : Source} {x : Spot} {l : Line} (hx : x ∈ s.spots)
    (hl : s.line? x.position.line = some l)
    (hfirst : ∀ first ∈ l.firstCode?, x.position.column < first) :
    x.isQuiet = true ∨ x.isQuoted = true := by
  cases hbreak : x.isBreak with
  | true => exact Or.inl (by simp [Spot.isQuiet, hbreak])
  | false =>
      obtain ⟨l', hl', hcell | hend⟩ := Source.mem_spots_iff.1 hx
      · obtain rfl : l' = l := Option.some.inj (hl'.symm.trans hl)
        obtain ⟨hlt, hget⟩ := List.getElem?_eq_some_iff.1 hcell
        have htoken : Line.isToken x.cell = false := by
          cases hcode : l'.firstCode? with
          | none => exact List.findIdx?_eq_none_iff.1 hcode _ (List.mem_of_getElem? hcell)
          | some first =>
              have hbefore := (List.findIdx?_eq_some_iff_getElem.1 hcode).2.2
              rw [← hget]
              simpa using hbefore x.position.column (hfirst first hcode)
        obtain ⟨position, char, region⟩ := x
        cases region with
        | code =>
            have hblank : isBlank char = true := by simpa [Line.isToken, Cell.isCode] using htoken
            exact Or.inl (by simp [Spot.isQuiet, hblank])
        | lineComment => exact Or.inl (by simp [Spot.isQuiet, Cell.isComment, Region.isComment])
        | blockComment => exact Or.inl (by simp [Spot.isQuiet, Cell.isComment, Region.isComment])
        | literal quote => exact Or.inr (by simp [Spot.isQuoted, hbreak, Cell.isLiteral])
      · rw [hend] at hbreak
        simp [Line.breakSpot, Spot.isBreak] at hbreak

/-- Quiet characters open no literal. -/
theorem plain_of_isQuiet {cells : List Cell}
    (h : ∀ c ∈ cells, c.isComment = true ∨ isBlank c.char = true) :
    Plain (cells.map Cell.visible) := by
  intro char hchar
  obtain ⟨c, hc, rfl⟩ := List.mem_map.1 hchar
  cases hcomment : c.isComment with
  | true => simp [Cell.visible, hcomment, isQuoteMark]
  | false =>
      have hblank : isBlank c.char = true := by simpa [hcomment] using h c hc
      simp [Cell.visible, hcomment, not_isQuoteMark_of_isBlank hblank]

/-- What follows a cell outside of literals starts literals with their quotes. -/
theorem Line.isChain_drop {l : Line} (h : l.OpensLiterals) {column : Nat}
    (hbefore : ∀ b, column = b + 1 → ∀ c ∈ l.cells[b]?, c.isLiteral = false) :
    (Cell.space :: l.cells.drop column).IsChain (Opens isQuoteMark) := by
  cases column with
  | zero => exact h
  | succ b =>
      cases hc : l.cells[b]? with
      | none =>
          rw [List.drop_eq_nil_of_le (Nat.le_succ_of_le (List.getElem?_eq_none_iff.1 hc))]
          exact List.isChain_singleton _
      | some c =>
          obtain ⟨hlt, hget⟩ := List.getElem?_eq_some_iff.1 hc
          have hsplit : l.cells = l.cells.take b ++ c :: l.cells.drop (b + 1) := by
            rw [← hget, ← List.drop_eq_getElem_cons hlt, List.take_append_drop]
          rw [OpensLiterals, hsplit] at h
          exact isChain_opens_of_append h (hbefore b rfl c hc)

/-- A quiet stretch that starts outside of literals has no part in them. -/
theorem not_isQuoted_of_isQuietWithin {s : Source} (hopens : s.OpensLiterals) {p q : Position}
    (hp : ∀ l, s.line? p.line = some l → ∀ b, p.column = b + 1 → ∀ c ∈ l.cells[b]?,
      c.isLiteral = false)
    (h : s.IsQuietWithin p q) : ∀ x ∈ s.spotsWithin p q, x.isQuoted = false := by
  intro x hx
  rw [← Bool.not_eq_true]
  intro hquoted
  simp only [Spot.isQuoted, Bool.and_eq_true, Bool.not_eq_true'] at hquoted
  obtain ⟨hbreak, hliteral⟩ := hquoted
  obtain ⟨hmem, hle, hlt⟩ := Source.mem_spotsWithin.1 hx
  obtain ⟨l, hl, hcell | hend⟩ := Source.mem_spots_iff.1 hmem
  · -- the stretch has a part of the line of the literal, from some column on
    obtain ⟨column, hcolumn, hstart, hbefore⟩ : ∃ column, column ≤ x.position.column ∧
        (∀ k, column ≤ k → p ≤ ⟨x.position.line, k⟩) ∧
        ∀ b, column = b + 1 → ∀ c ∈ l.cells[b]?, c.isLiteral = false := by
      rcases Position.le_iff.1 hle with hline | ⟨hline, hcolumn⟩
      · exact ⟨0, Nat.zero_le _, fun k _ => le_of_lt (Position.lt_of_line_lt hline), by simp⟩
      · refine ⟨p.column, hcolumn, fun k hk => Position.le_iff.2 (Or.inr ⟨hline, hk⟩), ?_⟩
        exact hp l (by rw [hline]; exact hl)
    have hchain := (Line.isChain_drop (hopens l (List.mem_of_getElem? hl)) hbefore).take
      (x.position.column - column + 2)
    rw [List.take_succ_cons] at hchain
    have hplain : Plain (((l.cells.drop column).take (x.position.column - column + 1)).map
        Cell.visible) := by
      refine plain_of_isQuiet fun c hc => ?_
      obtain ⟨k, hk⟩ := List.mem_iff_getElem?.1 hc
      rw [List.getElem?_take, List.getElem?_drop] at hk
      split at hk
      · next hkx =>
          have hspot : ⟨⟨x.position.line, column + k⟩, c⟩ ∈ s.spotsWithin p q := by
            refine Source.mem_spotsWithin.2 ⟨Source.mem_spots_of_cell hl hk,
              hstart _ (Nat.le_add_right _ _), lt_of_le_of_lt ?_ hlt⟩
            exact Position.le_iff.2 (Or.inr ⟨rfl, by simp only; omega⟩)
          have hquiet := h _ hspot
          simp only [Spot.isQuiet, Spot.isBreak, Bool.or_eq_true, decide_eq_true_eq] at hquiet
          rcases hquiet with hbreak | hquiet
          · exact Or.inr (by rw [hbreak]; decide)
          · exact hquiet
      · simp at hk
    have hlast : x.cell ∈ (l.cells.drop column).take (x.position.column - column + 1) := by
      refine List.mem_of_getElem? (i := x.position.column - column) ?_
      rw [List.getElem?_take_of_lt (Nat.lt_succ_self _), List.getElem?_drop,
        Nat.add_sub_cancel' hcolumn]
      exact hcell
    have hnot := not_literal_of_plain hchain rfl hplain x.cell hlast
    rw [hliteral] at hnot
    exact Bool.noConfusion hnot
  · rw [hend] at hbreak
    simp [Line.breakSpot, Spot.isBreak] at hbreak

/-! ### Lines below a header -/

/-- The lines above the first brace have no code, and it is the first code of its own. -/
theorem firstBrace?_above {n : Nat} {lines : List Line} {p : Position}
    (h : firstBrace? n lines = some p) {k : Nat} {l : Line} (hl : lines[k]? = some l)
    (hle : n + k ≤ p.line) :
    ∀ first ∈ l.firstCode?, n + k = p.line ∧ first = p.column := by
  induction lines generalizing n k with
  | nil => simp [firstBrace?] at h
  | cons line rest ih =>
      simp only [firstBrace?] at h
      split at h
      · next hnone =>
          cases k with
          | zero =>
              obtain rfl : line = l := by simpa using hl
              simp [hnone]
          | succ k =>
              intro first hfirst
              have := ih h (by simpa using hl) (by omega) first hfirst
              omega
      · next column hfirst =>
          split at h
          · simp only [Option.some.injEq] at h
            subst h
            cases k with
            | zero =>
                obtain rfl : line = l := by simpa using hl
                intro first hf
                rw [hfirst] at hf
                simpa using hf.symm
            | succ k => simp only at hle; omega
          · simp at h

/-- What is left of a run of cells behind its return type, if it has one. -/
def behindType (cells : List Cell) : List Cell :=
  match afterPair? '-' '>' (dropBlankCode cells) with
  | none => cells
  | some rest => (spanType (dropBlankCode rest)).2

/-- The end of a header before its body: of its return type, or of its closing parenthesis. -/
def Source.headerEnd (s : Source) (closing : Position) : Position :=
  match s.line? closing.line with
  | none => closing.next
  | some l => ⟨closing.line, l.length - (behindType (l.cells.drop (closing.column + 1))).length⟩

/-- A body is looked for behind the blanks that follow the return type. -/
theorem afterType_eq (cells : List Cell) : afterType cells = dropBlankCode (behindType cells) := by
  unfold afterType behindType
  cases afterPair? '-' '>' (dropBlankCode cells) with
  | none => rfl
  | some rest => rfl

/-- A type is a run of code. -/
theorem spanType_split (cells : List Cell) :
    ∃ typed, cells = typed ++ (spanType cells).2 ∧ typed.map Cell.char = (spanType cells).1 ∧
      ∀ c ∈ typed, c.isCode = true := by
  induction cells with
  | nil => exact ⟨[], rfl, rfl, by simp⟩
  | cons c rest ih =>
      simp only [spanType]
      split
      · exact ⟨[], rfl, rfl, by simp⟩
      · next hstop =>
          obtain ⟨typed, hrest, hchars, hcode⟩ := ih
          simp only [Bool.or_eq_true, not_or, Bool.not_eq_true'] at hstop
          refine ⟨c :: typed, ?_, ?_, ?_⟩
          · exact congrArg (c :: ·) hrest
          · exact congrArg (c.char :: ·) hchars
          · exact List.forall_mem_cons.2 ⟨by simpa using hstop.1.1.1, hcode⟩

/--
Before the end of a header stands nothing but its return type, if it has one: an arrow and a run of
code, with blanks of the code around the arrow.
-/
theorem readReturnType?_split {cells rest : List Cell} {type : Option String}
    (h : readReturnType? (dropBlankCode cells) = some (type, rest)) :
    (type = none ∧ behindType cells = cells) ∨
      ∃ before blanks typed, cells = before ++ ⟨'-', .code⟩ :: ⟨'>', .code⟩ ::
          (blanks ++ (typed ++ behindType cells)) ∧
        type = some (String.ofList (typed.map Cell.char)) ∧ typed ≠ [] ∧
        (∀ c ∈ before ++ blanks, c.isCode = true ∧ isBlank c.char = true) ∧
        ∀ c ∈ typed, c.isCode = true := by
  have hblanks {xs : List Cell} : ∀ c ∈ xs.takeWhile (fun c => c.isCode && isBlank c.char),
      c.isCode = true ∧ isBlank c.char = true := by
    intro c hc
    simpa using List.mem_takeWhile_imp hc
  unfold behindType
  cases hpair : afterPair? '-' '>' (dropBlankCode cells) with
  | none =>
      rw [readReturnType?_none hpair, Option.some.injEq, Prod.mk.injEq] at h
      exact Or.inl ⟨h.1.symm, rfl⟩
  | some inner =>
      rw [readReturnType?_some hpair] at h
      split at h
      · simp at h
      · next hempty =>
          right
          obtain ⟨typed, htyped, hchars, hcode⟩ := spanType_split (dropBlankCode inner)
          rw [Option.some.injEq, Prod.mk.injEq, ← hchars] at h
          refine ⟨cells.takeWhile (fun c => c.isCode && isBlank c.char),
            inner.takeWhile (fun c => c.isCode && isBlank c.char), typed, ?_, h.1.symm, ?_, ?_,
            hcode⟩
          · rw [← htyped, dropBlankCode, List.takeWhile_append_dropWhile,
              ← afterPair?_eq_some hpair, dropBlankCode, List.takeWhile_append_dropWhile]
          · rintro rfl
            rw [← hchars] at hempty
            simp at hempty
          · intro c hc
            rcases List.mem_append.1 hc with hc | hc
            · exact hblanks c hc
            · exact hblanks c hc

/-! ### Before and below a header -/

section

variable {s : Source}

/-- Before its start a header has only blanks, comments and literals. -/
theorem isQuiet_or_isQuoted_of_listedHeader? {n : Nat} {listed : ListedHeader}
    (h : listedHeader? s n = some listed) {x : Spot}
    (hx : x ∈ s.spotsWithin ⟨n, 0⟩ listed.start) : x.isQuiet = true ∨ x.isQuoted = true := by
  obtain ⟨line, hline, hn, hfirst, -⟩ := listedHeader?_eq_some h
  obtain ⟨hmem, hle, hlt⟩ := Source.mem_spotsWithin.1 hx
  rw [Position.le_iff] at hle
  rw [Position.lt_iff] at hlt
  simp only at hle
  have hxn : x.position.line = n := by omega
  refine isQuiet_or_isQuoted hmem (hxn ▸ hline) fun first hf => ?_
  rw [hfirst] at hf
  obtain rfl := Option.some.inj hf
  omega

/-- The last cell before the end of a header is code. -/
theorem exists_before_headerEnd {closing : Position} {l : Line} (hl : s.line? closing.line = some l)
    (hclosing : l.cells[closing.column]? = some ⟨')', .code⟩) {type : Option String}
    {rest : List Cell}
    (h : readReturnType? (dropBlankCode (l.cells.drop (closing.column + 1))) = some (type, rest)) :
    ∃ front c, l.cells = front ++ c :: behindType (l.cells.drop (closing.column + 1)) ∧
      c.isCode = true ∧ s.headerEnd closing = ⟨closing.line, front.length + 1⟩ := by
  obtain ⟨hlt, hget⟩ := List.getElem?_eq_some_iff.1 hclosing
  have hsplit : l.cells = l.cells.take closing.column ++
      ⟨')', .code⟩ :: l.cells.drop (closing.column + 1) := by
    rw [← hget, ← List.drop_eq_getElem_cons hlt, List.take_append_drop]
  obtain ⟨front, c, hcells, hcode⟩ : ∃ front c,
      l.cells = front ++ c :: behindType (l.cells.drop (closing.column + 1)) ∧ c.isCode = true := by
    rcases readReturnType?_split h with ⟨-, hbehind⟩ |
      ⟨before, blanks, typed, hdrop, -, hne, -, htyped⟩
    · exact ⟨_, _, by rw [hbehind]; exact hsplit, rfl⟩
    · obtain ⟨start, c, rfl⟩ : ∃ start c, typed = start ++ [c] :=
        ⟨_, _, (List.dropLast_append_getLast hne).symm⟩
      refine ⟨l.cells.take closing.column ++ ⟨')', .code⟩ :: (before ++ ⟨'-', .code⟩ ::
        ⟨'>', .code⟩ :: (blanks ++ start)), c, ?_, htyped c (by simp)⟩
      nth_rewrite 1 [hsplit]
      nth_rewrite 1 [hdrop]
      simp
  refine ⟨front, c, hcells, hcode, ?_⟩
  have hlength := congrArg List.length hcells
  rw [List.length_append, List.length_cons] at hlength
  rw [Source.headerEnd, hl]
  simp only [Line.length, Position.mk.injEq, true_and]
  omega

/-- A block below a header is looked for behind the end of its last line, or behind a comment. -/
theorem nextBrace?_of_tail? {closing : Position} {t : Tail} (h : tail? s closing = some t)
    {opening : Position} {stop : Option Position} (hbody : t.body = .block opening stop)
    (hbelow : closing.line < opening.line) :
    ∃ l type, s.line? closing.line = some l ∧
      readReturnType? (dropBlankCode (l.cells.drop (closing.column + 1))) =
        some (type, afterType (l.cells.drop (closing.column + 1))) ∧
      (∀ c ∈ (afterType (l.cells.drop (closing.column + 1))).head?, c.isComment = true) ∧
      nextBrace? s closing.line = some opening := by
  obtain ⟨-, hheader, -⟩ := tail?_spec h
  simp only [tail?, Option.bind_eq_bind, Option.bind_eq_some_iff] at h
  obtain ⟨l, hl, ⟨type, cells⟩, htype, ⟨body, headerLine⟩, hfound, ht⟩ := h
  simp only [Option.pure_def, Option.some.injEq] at ht
  subst ht
  simp only at hbody hheader
  rw [hbody, Body.start] at hheader
  obtain rfl := eq_afterType htype
  have hhead : ∀ c ∈ (afterType (l.cells.drop (closing.column + 1))).head?, c.isComment = true := by
    intro c hc
    obtain ⟨rest, hrest⟩ := List.head?_eq_some_iff.1 hc
    rw [hrest] at hfound
    by_contra hcomment
    have hline := line_of_bodyFrom? (Bool.eq_false_iff.2 hcomment) hfound
    omega
  rw [bodyFrom?_of_comment hhead, Option.map_eq_some_iff] at hfound
  obtain ⟨opening', hopening, heq⟩ := hfound
  rw [Prod.mk.injEq, hbody, blockAt, Body.block.injEq] at heq
  obtain ⟨⟨rfl, -⟩, -⟩ := heq
  exact ⟨l, type, hl, htype, hhead, hopening⟩

/-- On the lines below a header only blanks, comments and literals come before its block. -/
theorem isQuiet_or_isQuoted_of_nextBrace? {n : Nat} {p opening : Position}
    (h : nextBrace? s n = some opening) {x : Spot} (hx : x ∈ s.spotsWithin p opening)
    (hline : n < x.position.line) : x.isQuiet = true ∨ x.isQuoted = true := by
  obtain ⟨hmem, -, hlt⟩ := Source.mem_spotsWithin.1 hx
  obtain ⟨l, hl, -⟩ := Source.mem_spots_iff.1 hmem
  rw [Position.lt_iff] at hlt
  refine isQuiet_or_isQuoted hmem hl fun first hfirst => ?_
  have hdrop : (s.lines.drop (n + 1))[x.position.line - (n + 1)]? = some l := by
    rw [List.getElem?_drop, Nat.add_sub_cancel' hline]
    exact hl
  have hfound := firstBrace?_above h hdrop (by omega) first hfirst
  omega

/-- On its last line, behind its end, a header is followed by what is looked at for a body. -/
theorem mem_behindType {closing q : Position} {l : Line} {front : List Cell} {c : Cell}
    (hl : s.line? closing.line = some l)
    (hcells : l.cells = front ++ c :: behindType (l.cells.drop (closing.column + 1)))
    {x : Spot} (hx : x ∈ s.spotsWithin ⟨closing.line, front.length + 1⟩ q)
    (hline : x.position.line = closing.line) :
    x.isBreak = true ∨ x.cell ∈ behindType (l.cells.drop (closing.column + 1)) := by
  obtain ⟨hmem, hle, -⟩ := Source.mem_spotsWithin.1 hx
  rw [Position.le_iff] at hle
  simp only at hle
  obtain ⟨l', hl', hcell | hend⟩ := Source.mem_spots_iff.1 hmem
  · right
    rw [hline] at hl'
    obtain rfl : l' = l := Option.some.inj (hl'.symm.trans hl)
    rw [hcells, List.append_cons, List.getElem?_append_right (by simp; omega)] at hcell
    exact List.mem_of_getElem? hcell
  · left
    rw [hend]
    rfl

/-- All of it is a stretch of the text. -/
theorem exists_spot_of_mem_behindType {closing q : Position} {l : Line} {front : List Cell}
    {c : Cell} (hl : s.line? closing.line = some l)
    (hcells : l.cells = front ++ c :: behindType (l.cells.drop (closing.column + 1)))
    (hq : closing.line < q.line) {d : Cell}
    (hd : d ∈ behindType (l.cells.drop (closing.column + 1))) :
    ∃ x ∈ s.spotsWithin ⟨closing.line, front.length + 1⟩ q, x.cell = d := by
  obtain ⟨k, hk⟩ := List.mem_iff_getElem?.1 hd
  have hcell : l.cells[front.length + 1 + k]? = some d := by
    rw [hcells, List.append_cons, List.getElem?_append_right (by simp)]
    simpa using hk
  refine ⟨⟨⟨closing.line, front.length + 1 + k⟩, d⟩, Source.mem_spotsWithin.2
    ⟨Source.mem_spots_of_cell hl hcell, ?_, Position.lt_of_line_lt hq⟩, rfl⟩
  exact Position.le_iff.2 (Or.inr ⟨rfl, Nat.le_add_right _ _⟩)

end

/-- What is passed over on the last line of a header, behind its end. -/
theorem isQuiet_of_not_hidden {cells : List Cell}
    (hhead : ∀ c ∈ (afterType cells).head?, c.isComment = true)
    (hhides : commentHides (afterType cells) = false) {c : Cell} (hc : c ∈ behindType cells) :
    c.isComment = true ∨ isBlank c.char = true := by
  rw [afterType_eq] at hhead hhides
  rw [← List.takeWhile_append_dropWhile (p := fun c => c.isCode && isBlank c.char)
    (l := behindType cells)] at hc
  rcases List.mem_append.1 hc with hc | hc
  · have hblank := List.mem_takeWhile_imp hc
    simp only [Bool.and_eq_true] at hblank
    exact Or.inr hblank.2
  · change c ∈ dropBlankCode (behindType cells) at hc
    cases hrest : dropBlankCode (behindType cells) with
    | nil => simp [hrest] at hc
    | cons first rest =>
        rw [hrest] at hhead hhides hc
        have hfirst := hhead first rfl
        simp only [commentHides, hfirst, Bool.true_and, List.any_eq_false, Bool.not_eq_true,
          Bool.not_eq_false'] at hhides
        rcases List.mem_cons.1 hc with rfl | hc
        · exact Or.inl hfirst
        · have hidle := hhides c hc
          simp only [isIdle, Bool.or_eq_true, Bool.and_eq_true] at hidle
          rcases hidle with hcomment | hblank
          · exact Or.inl hcomment
          · exact Or.inr hblank.2

/-- A comment hides a cell that is neither a comment nor a blank of the code. -/
theorem exists_of_commentHides {cells : List Cell} (h : commentHides cells = true) :
    ∃ d ∈ cells, isIdle d = false := by
  cases cells with
  | nil => simp [commentHides] at h
  | cons c rest =>
      simp only [commentHides, Bool.and_eq_true, List.any_eq_true, Bool.not_eq_true'] at h
      obtain ⟨-, d, hd, hidle⟩ := h
      exact ⟨d, List.mem_cons_of_mem c hd, hidle⟩

/-- What is quiet on a line, and no part of a literal, says nothing. -/
theorem isIdle_of_isQuiet {x : Spot} (hbreak : x.isBreak = false) (hquiet : x.isQuiet = true)
    (hquoted : x.isQuoted = false) : isIdle x.cell = true := by
  simp only [Spot.isQuiet, hbreak, Bool.false_or, Bool.or_eq_true] at hquiet
  simp only [Spot.isQuoted, hbreak, Bool.not_false, Bool.true_and] at hquoted
  obtain ⟨position, char, region⟩ := x
  cases region with
  | code => simpa [isIdle, Cell.isCode, Cell.isComment, Region.isComment] using hquiet
  | lineComment => rfl
  | blockComment => rfl
  | literal quote => simp [Cell.isLiteral] at hquoted

section

variable {s : Source} {closing opening : Position} {l : Line} {front : List Cell} {c : Cell}

/--
Above the block of a header only blanks, comments and literals are passed over, and on the last line
of the header what a comment hides there.
-/
theorem passed_over_below (hl : s.line? closing.line = some l)
    (hcells : l.cells = front ++ c :: behindType (l.cells.drop (closing.column + 1)))
    (hhead : ∀ d ∈ (afterType (l.cells.drop (closing.column + 1))).head?, d.isComment = true)
    (hopening : nextBrace? s closing.line = some opening) {x : Spot}
    (hx : x ∈ s.spotsWithin ⟨closing.line, front.length + 1⟩ opening) :
    x.isQuiet = true ∨ x.isQuoted = true ∨ x.position.line = closing.line ∧
      commentHides (afterType (l.cells.drop (closing.column + 1))) = true := by
  have hle := (Source.mem_spotsWithin.1 hx).2.1
  rw [Position.le_iff] at hle
  simp only at hle
  by_cases hline : x.position.line = closing.line
  · cases hhidden : commentHides (afterType (l.cells.drop (closing.column + 1))) with
    | true => exact Or.inr (Or.inr ⟨hline, rfl⟩)
    | false =>
        left
        rcases mem_behindType hl hcells hx hline with hbreak | hmem
        · simp [Spot.isQuiet, hbreak]
        · rcases isQuiet_of_not_hidden hhead hhidden hmem with hcomment | hblank
          · simp [Spot.isQuiet, hcomment]
          · simp [Spot.isQuiet, hblank]
  · rcases isQuiet_or_isQuoted_of_nextBrace? hopening hx (by omega) with hquiet | hquoted
    · exact Or.inl hquiet
    · exact Or.inr (Or.inl hquoted)

/--
Where all that is passed over is quiet, and no part of a literal, no comment hides anything: what it
hid would be quiet and yet say something.
-/
theorem not_commentHides_of_isQuietWithin (hbreaks : s.HasNoBreaks)
    (hl : s.line? closing.line = some l)
    (hcells : l.cells = front ++ c :: behindType (l.cells.drop (closing.column + 1)))
    (hbelow : closing.line < opening.line)
    (hquiet : s.IsQuietWithin ⟨closing.line, front.length + 1⟩ opening)
    (hquoted : ∀ x ∈ s.spotsWithin ⟨closing.line, front.length + 1⟩ opening,
      x.isQuoted = false) :
    commentHides (afterType (l.cells.drop (closing.column + 1))) = false := by
  by_contra hhidden
  rw [Bool.not_eq_false] at hhidden
  obtain ⟨d, hd, hidle⟩ := exists_of_commentHides hhidden
  rw [afterType_eq] at hd
  have hbehind := (dropBlankCode_suffix _).subset hd
  obtain ⟨x, hx, rfl⟩ := exists_spot_of_mem_behindType hl hcells hbelow hbehind
  have hmem : x.cell ∈ l.cells := by
    rw [hcells]
    exact List.mem_append_right _ (List.mem_cons_of_mem c hbehind)
  have hbreak : x.isBreak = false := by
    simp only [Spot.isBreak, decide_eq_false_iff_not]
    intro hchar
    exact hbreaks l (List.mem_of_getElem? hl) (List.mem_map.2 ⟨x.cell, hmem, hchar⟩)
  rw [isIdle_of_isQuiet hbreak (hquiet x hx) (hquoted x hx)] at hidle
  exact Bool.noConfusion hidle

end

/-! ### Declarations -/

/-- The list of parameters of a header ends with a parenthesis of the code. -/
theorem closing_of_listedHeader? {s : Source} {n : Nat} {listed : ListedHeader}
    (h : listedHeader? s n = some listed) :
    ∃ l, s.line? listed.closing.line = some l ∧
      l.cells[listed.closing.column]? = some ⟨')', .code⟩ := by
  obtain ⟨line, hline, -, -, hheader, -, hcells⟩ := listedHeader?_eq_some h
  obtain ⟨before, hbefore, -⟩ := Header.read?_spec hheader
  have hcolumn := Line.column_eq_of_drop hbefore
  have hlength := congrArg List.length hbefore
  rw [List.length_drop, Line.codeText_length, List.length_append, List.length_cons] at hlength
  have hreaches : s.Reaches
      (Position.next ⟨n, line.length - listed.header.rest.length - 1⟩) :=
    ⟨line, hline, by simp only [Position.next]; omega⟩
  exact Source.cell_of_code_mem (parameterCells?_spec hreaches hcells).2 (by decide)

/-- Behind a header whose block is further down, only comments hide what is neither. -/
theorem isQuietWithin_below_iff {text : List Char} {closing opening : Position}
    {stop : Option Position} {t : Tail} {l : Line}
    (hl : (Source.scan text).line? closing.line = some l)
    (hclosing : l.cells[closing.column]? = some ⟨')', .code⟩)
    (h : tail? (Source.scan text) closing = some t) (hbody : t.body = .block opening stop)
    (hbelow : closing.line < opening.line) :
    (∀ x ∈ (Source.scan text).spotsWithin ((Source.scan text).headerEnd closing) opening,
        x.isQuiet = true ∨ x.isQuoted = true ∨
          x.position.line = closing.line ∧ (Source.scan text).hidesBehind closing = true) ∧
      ((Source.scan text).IsQuietWithin ((Source.scan text).headerEnd closing) opening ↔
        (∀ x ∈ (Source.scan text).spotsWithin ((Source.scan text).headerEnd closing) opening,
          x.isQuoted = false) ∧ (Source.scan text).hidesBehind closing = false) := by
  obtain ⟨l', type, hl', htype, hhead, hopening⟩ := nextBrace?_of_tail? h hbody hbelow
  obtain rfl : l' = l := Option.some.inj (hl'.symm.trans hl)
  obtain ⟨front, c, hcells, hcode, hend⟩ := exists_before_headerEnd hl hclosing htype
  have hhides : (Source.scan text).hidesBehind closing =
      commentHides (afterType (l'.cells.drop (closing.column + 1))) := by
    simp only [Source.hidesBehind, hl, Option.any_some]
  rw [hend, hhides]
  have hpassed : ∀ x ∈ (Source.scan text).spotsWithin ⟨closing.line, front.length + 1⟩ opening,
      x.isQuiet = true ∨ x.isQuoted = true ∨ x.position.line = closing.line ∧
        commentHides (afterType (l'.cells.drop (closing.column + 1))) = true :=
    fun _ hx => passed_over_below hl hcells hhead hopening hx
  refine ⟨hpassed, ?_, ?_⟩
  · intro hquiet
    have hquoted := not_isQuoted_of_isQuietWithin (Source.opensLiterals_scan text) (by
      intro l hline b hb d hd
      obtain rfl : l' = l := Option.some.inj (hl.symm.trans hline)
      simp only [Nat.add_right_cancel_iff] at hb
      rw [hcells, ← hb, List.getElem?_append_right (Nat.le_refl _), Nat.sub_self] at hd
      obtain rfl := Option.some.inj hd
      exact Cell.not_literal_of_isCode hcode) hquiet
    exact ⟨hquoted, not_commentHides_of_isQuietWithin (Source.hasNoBreaks_scan text) hl hcells
      hbelow hquiet hquoted⟩
  · rintro ⟨hquoted, hhidden⟩ x hx
    rcases hpassed x hx with hquiet | hliteral | ⟨-, hcomment⟩
    · exact hquiet
    · rw [hquoted x hx] at hliteral
      exact Bool.noConfusion hliteral
    · rw [hhidden] at hcomment
      exact Bool.noConfusion hcomment

/--
Before a header only blanks, comments and literals are passed over.  Where its block opens on a
later line, blanks, comments and literals are passed over behind it as well, and besides these what
stands behind a comment on its last line.  So these are blanks and comments only just if there is no
literal among them and no comment hides something else.
-/
theorem passed_over (text : List Char) (n : Nat) (d : Declaration)
    (h : declaration? (Source.scan text) n = some d) :
    ∃ listed, listedHeader? (Source.scan text) n = some listed ∧
      (∀ x ∈ (Source.scan text).spotsWithin ⟨n, 0⟩ d.start,
        x.isQuiet = true ∨ x.isQuoted = true) ∧
      ((Source.scan text).IsQuietWithin ⟨n, 0⟩ d.start ↔
        ∀ x ∈ (Source.scan text).spotsWithin ⟨n, 0⟩ d.start, x.isQuoted = false) ∧
      ∀ opening stop, d.body = .block opening stop → listed.closing.line < opening.line →
        let finish := (Source.scan text).headerEnd listed.closing
        (∀ x ∈ (Source.scan text).spotsWithin finish opening,
          x.isQuiet = true ∨ x.isQuoted = true ∨ x.position.line = listed.closing.line ∧
            (Source.scan text).hidesBehind listed.closing = true) ∧
        ((Source.scan text).IsQuietWithin finish opening ↔
          (∀ x ∈ (Source.scan text).spotsWithin finish opening, x.isQuoted = false) ∧
            (Source.scan text).hidesBehind listed.closing = false) := by
  obtain ⟨listed, tail, hlisted, htail, rfl⟩ := declaration?_eq_some_iff.1 h
  have hbefore : ∀ x ∈ (Source.scan text).spotsWithin ⟨n, 0⟩ listed.start,
      x.isQuiet = true ∨ x.isQuoted = true :=
    fun x hx => isQuiet_or_isQuoted_of_listedHeader? hlisted hx
  refine ⟨listed, hlisted, hbefore, ⟨?_, ?_⟩, ?_⟩
  · exact not_isQuoted_of_isQuietWithin (Source.opensLiterals_scan text) (by simp)
  · intro hquoted x hx
    refine (hbefore x hx).resolve_right ?_
    rw [hquoted x hx]
    exact Bool.noConfusion
  · intro opening stop hbody hbelow
    obtain ⟨l, hl, hclosing⟩ := closing_of_listedHeader? hlisted
    exact isQuietWithin_below_iff hl hclosing htail hbody hbelow

/-- A function whose block opens below a comment and a literal. -/
def literalGap : List Char :=
  "F() -> T ; text\n\"abc\"\n\x7b\n\x7d".toList

/-- No comment hides anything there, but the literal is passed over. -/
theorem passed_over_literalGap :
    (declaration? (Source.scan literalGap) 0).map (·.body) = some (.block ⟨2, 0⟩ (some ⟨3, 0⟩)) ∧
      (Source.scan literalGap).IsQuietWithin ⟨0, 0⟩ ⟨0, 0⟩ ∧
      ¬(Source.scan literalGap).IsQuietWithin ⟨0, 8⟩ ⟨2, 0⟩ := by
  have hbody : (declaration? (Source.scan literalGap) 0).map (fun d => (d.start, d.body)) =
      some (⟨0, 0⟩, .block ⟨2, 0⟩ (some ⟨3, 0⟩)) := by
    decide +kernel
  have hclosing : (listedHeader? (Source.scan literalGap) 0).map (·.closing) = some ⟨0, 2⟩ := by
    decide +kernel
  have hfinish : (Source.scan literalGap).headerEnd ⟨0, 2⟩ = ⟨0, 8⟩ := by decide +kernel
  obtain ⟨d, hd, hparts⟩ := Option.map_eq_some_iff.1 hbody
  rw [Prod.mk.injEq] at hparts
  obtain ⟨hstart, hblock⟩ := hparts
  obtain ⟨listed, hlisted, -, hahead, hbelow⟩ := passed_over literalGap 0 d hd
  rw [hlisted, Option.map_some, Option.some.injEq] at hclosing
  rw [hclosing] at hbelow
  obtain ⟨-, hiff⟩ := hbelow ⟨2, 0⟩ (some ⟨3, 0⟩) hblock (by decide)
  simp only [hfinish] at hiff
  rw [hstart] at hahead
  refine ⟨by rw [hd, ← hblock]; rfl, hahead.2 ?_, fun hquiet => ?_⟩
  · decide +kernel
  · have hquoted := (hiff.1 hquiet).1 ⟨⟨1, 0⟩, ⟨'"', .literal .double⟩⟩ (by decide +kernel)
    exact absurd hquoted (by decide)

/-- A call behind a literal, with a block behind it. -/
def quotedCall : List Char :=
  "\"abc\" F() \x7b\n\x7d".toList

/-- The literal is passed over, and the call is read as a declaration. -/
theorem quotedCall_declares :
    (declaration? (Source.scan quotedCall) 0).map (fun d => (d.name, d.start)) =
        some ("F", ⟨0, 6⟩) ∧
      ¬(Source.scan quotedCall).IsQuietWithin ⟨0, 0⟩ ⟨0, 6⟩ := by
  refine ⟨by decide +kernel, fun hquiet => ?_⟩
  have hquote := hquiet ⟨⟨0, 0⟩, ⟨'"', .literal .double⟩⟩ (by decide +kernel)
  exact absurd hquote (by decide)

end ScriptOutline
