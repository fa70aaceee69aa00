/-
**Texts with the insides of their literals overwritten.**

The characters strictly inside a literal can be overwritten, and the rest of the text stays what it
is: the regions, the brackets of the code and the brace pairs.  A literal starts with its quote, so
that plain text which does not start within a literal has no part in one.

Main definitions:

* `Cell.isInside` — a character strictly inside a literal, neither a quote nor an escape;
* `Cell.redacted`, `Line.redacted`, `Source.redacted` — the same with such characters overwritten;
* `Opens` — a cell in a literal is not the first of it, or a certain character.

Main results:

* `Source.opensLiterals_scan` — in a scanned text every literal starts with a quote;
* `not_literal_of_plain` — where a text is plain there is no literal;
* `pairBraces_redacted` — what is strictly inside literals has no part in the brace pairs;
* `Source.spotsFrom_redacted` — the spots of a redacted text.
-/

import ScriptOutline.Proofs.CodeCells
import ScriptOutline.Proofs.Uncommented

set_option relaxedAutoImplicit false
set_option autoImplicit false

namespace ScriptOutline

/-! ### Cells -/

namespace Cell

variable {c : Cell}

/-- Whether a cell is part of a literal. -/
def isLiteral (c : Cell) : Bool :=
  match c.region with
  | .literal _ => true
  | .code | .lineComment | .blockComment => false

theorem isLiteral_iff : c.isLiteral = true ↔ ∃ quote, c.region = .literal quote := by
  obtain ⟨char, region⟩ := c
  cases region <;> simp [isLiteral]

/-- Whether a cell is strictly inside a literal: it is neither a quote nor an escape. -/
def isInside (c : Cell) : Bool :=
  c.isLiteral && !isQuoteMark c.char && c.char ≠ Mode.escape

/-- A cell, overwritten if it is strictly inside a literal. -/
def redacted (c : Cell) : Cell :=
  if c.isInside then ⟨'x', c.region⟩ else c

@[simp] theorem redacted_region (c : Cell) : c.redacted.region = c.region := by
  unfold redacted
  split <;> rfl

@[simp] theorem isLiteral_redacted (c : Cell) : c.redacted.isLiteral = c.isLiteral := by
  simp only [isLiteral, redacted_region]

@[simp] theorem isCode_redacted (c : Cell) : c.redacted.isCode = c.isCode := by
  simp only [isCode, redacted_region]

@[simp] theorem isComment_redacted (c : Cell) : c.redacted.isComment = c.isComment := by
  simp only [isComment, redacted_region]

theorem redacted_of_not_literal (h : c.isLiteral = false) : c.redacted = c := by
  simp [redacted, isInside, h]

theorem not_literal_of_isCode (h : c.isCode = true) : c.isLiteral = false := by
  simp only [isCode, decide_eq_true_eq] at h
  simp only [isLiteral, h]

theorem not_literal_of_isComment (h : c.isComment = true) : c.isLiteral = false := by
  obtain ⟨char, region⟩ := c
  cases region <;> first | rfl | simp [isComment, Region.isComment] at h

/-- What is part of a literal is neither code nor part of a comment. -/
theorem not_isCode_of_isLiteral (h : c.isLiteral = true) : c.isCode = false := by
  obtain ⟨quote, hregion⟩ := isLiteral_iff.1 h
  simp [isCode, hregion]

theorem not_isComment_of_isLiteral (h : c.isLiteral = true) : c.isComment = false := by
  obtain ⟨quote, hregion⟩ := isLiteral_iff.1 h
  simp [isComment, hregion, Region.isComment]

theorem redacted_of_isCode (h : c.isCode = true) : c.redacted = c :=
  redacted_of_not_literal (not_literal_of_isCode h)

theorem redacted_of_isQuoteMark (h : isQuoteMark c.char = true) : c.redacted = c := by
  simp [redacted, isInside, h]

theorem redacted_of_isInside (h : c.isInside = true) : c.redacted = ⟨'x', c.region⟩ :=
  if_pos h

@[simp] theorem redacted_redacted (c : Cell) : c.redacted.redacted = c.redacted := by
  cases h : c.isInside with
  | true =>
      rw [redacted_of_isInside h, redacted]
      split <;> rfl
  | false =>
      have hself : c.redacted = c := by simp [redacted, h]
      rw [hself, hself]

@[simp] theorem isInside_redacted (c : Cell) : c.redacted.isInside = c.isInside := by
  cases h : c.isInside with
  | true =>
      rw [redacted_of_isInside h]
      simp only [isInside, Bool.and_eq_true] at h
      simp only [isInside, isLiteral] at h ⊢
      simp only [h.1.1]
      rfl
  | false =>
      have hself : c.redacted = c := by simp [redacted, h]
      rw [hself, h]

@[simp] theorem isQuoteMark_redacted (c : Cell) :
    isQuoteMark c.redacted.char = isQuoteMark c.char := by
  unfold redacted
  split
  · next h =>
      simp only [isInside, Bool.and_eq_true, Bool.not_eq_true'] at h
      rw [h.1.2]
      rfl
  · rfl

/-- A cell keeps its character, or it is in a literal and overwritten. -/
theorem redacted_char_cases (c : Cell) :
    c.redacted.char = c.char ∨ c.isLiteral = true ∧ c.redacted.char = 'x' := by
  unfold redacted
  split
  · next h =>
      simp only [isInside, Bool.and_eq_true] at h
      exact Or.inr ⟨h.1.1, rfl⟩
  · exact Or.inl rfl

/-- The characters of the code are never overwritten. -/
@[simp] theorem isCodeChar_redacted (c : Cell) (char : Char) :
    c.redacted.isCodeChar char = c.isCodeChar char := by
  cases h : c.isCode with
  | true => rw [redacted_of_isCode h]
  | false => simp only [isCodeChar, isCode_redacted, h, Bool.false_and]

@[simp] theorem isOpener_redacted (c : Cell) : c.redacted.isOpener = c.isOpener := by
  cases h : c.isCode with
  | true => rw [redacted_of_isCode h]
  | false => simp only [isOpener, isCode_redacted, h, Bool.false_and]

@[simp] theorem isCloser_redacted (c : Cell) : c.redacted.isCloser = c.isCloser := by
  cases h : c.isCode with
  | true => rw [redacted_of_isCode h]
  | false => simp only [isCloser, isCode_redacted, h, Bool.false_and]

end Cell

@[simp] theorem Line.isToken_redacted (c : Cell) : isToken c.redacted = isToken c := by
  cases h : c.isCode with
  | true => rw [Cell.redacted_of_isCode h]
  | false => simp only [isToken, Cell.isCode_redacted, h, Bool.false_and]

@[simp] theorem bracketStep_redacted (depth : Nat) (c : Cell) :
    bracketStep depth c.redacted = bracketStep depth c := by
  simp only [bracketStep, Cell.isOpener_redacted, Cell.isCloser_redacted]

/-- What is strictly inside literals opens and closes no braces. -/
theorem depthAfter_redacted (depth : Nat) (cells : List Cell) :
    depthAfter depth (cells.map Cell.redacted) = depthAfter depth cells := by
  simp only [depthAfter, List.foldl_map, depthStep, Cell.isCodeChar_redacted]
  rfl

/-! ### Where literals start -/

/-- A cell in a literal is not the first of it, or a certain character. -/
def Opens (p : Char → Bool) (c d : Cell) : Prop :=
  d.isLiteral = true → c.isLiteral = true ∨ p d.char = true

instance (p : Char → Bool) (c d : Cell) : Decidable (Opens p c d) :=
  inferInstanceAs (Decidable (_ → _))

section

variable {p : Char → Bool}

/-- How a literal goes on depends on the cell before by its region only. -/
theorem isChain_opens_of_not_literal {c d : Cell} {cells : List Cell}
    (h : (c :: cells).IsChain (Opens p)) (hc : c.isLiteral = false) :
    (d :: cells).IsChain (Opens p) := by
  rw [List.isChain_cons] at h ⊢
  refine ⟨fun e he hliteral => ?_, h.2⟩
  rcases h.1 e he hliteral with hnot | hp
  · rw [hc] at hnot
    exact Bool.noConfusion hnot
  · exact Or.inr hp

theorem isChain_opens_of_literal {c d : Cell} {cells : List Cell}
    (h : (c :: cells).IsChain (Opens p)) (hd : d.isLiteral = true) :
    (d :: cells).IsChain (Opens p) := by
  rw [List.isChain_cons] at h ⊢
  exact ⟨fun _ _ _ => Or.inl hd, h.2⟩

/-- What follows a cell outside of literals. -/
theorem isChain_opens_of_append {c d e : Cell} {before after : List Cell}
    (h : (c :: (before ++ d :: after)).IsChain (Opens p)) (hd : d.isLiteral = false) :
    (e :: after).IsChain (Opens p) := by
  rw [← List.cons_append] at h
  exact isChain_opens_of_not_literal (List.isChain_append.1 h).2.1 hd

end

theorem isChain_opens_redacted {c : Cell} {cells : List Cell}
    (h : (c :: cells).IsChain (Opens isQuoteMark)) :
    (c :: cells.map Cell.redacted).IsChain (Opens isQuoteMark) := by
  induction cells generalizing c with
  | nil => exact List.isChain_singleton c
  | cons d rest ih =>
      rw [List.isChain_cons_cons] at h
      rw [List.map_cons, List.isChain_cons_cons]
      constructor
      · intro hliteral
        rw [Cell.isLiteral_redacted] at hliteral
        rw [Cell.isQuoteMark_redacted]
        exact h.1 hliteral
      · have hrest := ih h.2
        cases hd : d.isLiteral with
        | true => exact isChain_opens_of_literal hrest (by rw [Cell.isLiteral_redacted, hd])
        | false => exact isChain_opens_of_not_literal hrest hd

/-- Plain text that does not start within a literal has no part in one. -/
theorem not_literal_of_plain {c : Cell} {cells : List Cell}
    (h : (c :: cells).IsChain (Opens isQuoteMark)) (hc : c.isLiteral = false)
    (hplain : Plain (cells.map Cell.visible)) : ∀ d ∈ cells, d.isLiteral = false := by
  induction cells generalizing c with
  | nil => simp
  | cons d rest ih =>
      rw [List.isChain_cons_cons] at h
      obtain ⟨hd, hrest⟩ := List.forall_mem_cons.1 hplain
      have hnot : d.isLiteral = false := by
        cases hliteral : d.isLiteral with
        | false => rfl
        | true =>
            -- a literal can be seen, and so can the quote it starts with
            have hcomment := Cell.not_isComment_of_isLiteral hliteral
            rcases h.1 hliteral with hbefore | hmark
            · rw [hc] at hbefore
              exact Bool.noConfusion hbefore
            · simp only [Cell.visible, hcomment, Bool.false_eq_true, if_false, hmark] at hd
              exact Bool.noConfusion hd
      exact List.forall_mem_cons.2 ⟨hnot, ih h.2 hnot hrest⟩

/-- What has no part in literals is not overwritten. -/
theorem map_redacted_of_not_literal {cells : List Cell} (h : ∀ c ∈ cells, c.isLiteral = false) :
    cells.map Cell.redacted = cells :=
  (List.map_congr_left fun c hc => Cell.redacted_of_not_literal (h c hc)).trans cells.map_id

theorem eq_of_map_redacted {xs ys : List Cell} (h : xs.map Cell.redacted = ys)
    (hys : ∀ c ∈ ys, c.isLiteral = false) : xs = ys := by
  rw [← h] at hys ⊢
  refine (map_redacted_of_not_literal fun c hc => ?_).symm
  rw [← Cell.isLiteral_redacted]
  exact hys _ (List.mem_map_of_mem hc)

namespace Mode

/-- Within a literal the reader reads a literal. -/
theorem isLiteral_step {mode : Mode} (h : ¬mode.IsOutside) (fresh : Bool) (c : Char)
    (ahead : Option Char) : Cell.isLiteral ⟨c, (mode.step fresh c ahead).1⟩ = true := by
  cases mode with
  | code => exact absurd isOutside_code h
  | lineComment => exact absurd isOutside_lineComment h
  | blockComment => exact absurd isOutside_blockComment h
  | opening => exact absurd isOutside_opening h
  | closing => exact absurd isOutside_closing h
  | literal quote =>
      simp only [step]
      split
      · rfl
      · split <;> rfl
  | escaped quote => rfl

theorem isOutside_afterBreak (mode : Mode) : mode.afterBreak.IsOutside := by
  cases mode with
  | blockComment => exact isOutside_blockComment
  | _ => exact isOutside_code

/-- In what is read a literal starts with a quote, unless the reader is inside of one already. -/
theorem isChain_opens_readFrom (mode : Mode) (fresh : Bool) (line : List Char) {c : Cell}
    (hc : mode.IsOutside ∨ c.isLiteral = true) :
    (c :: (mode.readFrom fresh line).1).IsChain (Opens isQuoteMark) := by
  induction line generalizing mode fresh c with
  | nil => exact List.isChain_singleton c
  | cons d rest ih =>
      simp only [readFrom]
      rw [List.isChain_cons_cons]
      -- from outside a literal starts only at a quote; from inside the cell before is part of it
      by_cases houtside : mode.IsOutside
      · rcases step_outside houtside fresh d rest.head? with ⟨⟨quote, hstep⟩, hd⟩ | ⟨hstep, hnext⟩
        · exact ⟨fun _ => Or.inr hd, ih _ _ (Or.inr (by simp [Cell.isLiteral, hstep]))⟩
        · refine ⟨fun hliteral => ?_, ih _ _ (Or.inl hnext)⟩
          obtain ⟨quote, hquote⟩ := Cell.isLiteral_iff.1 hliteral
          exact absurd hquote (hstep quote)
      · exact ⟨fun _ => Or.inl (hc.resolve_left houtside),
          ih _ _ (Or.inr (isLiteral_step houtside fresh d rest.head?))⟩

end Mode

/-- Every literal of a line starts with a quote. -/
def Line.OpensLiterals (l : Line) : Prop :=
  (Cell.space :: l.cells).IsChain (Opens isQuoteMark)

theorem opensLiterals_of_mem_readLines {mode : Mode} (hmode : mode.IsOutside) {depth : Nat}
    {lines : List (List Char)} {l : Line} (h : l ∈ readLines mode depth lines) :
    l.OpensLiterals := by
  induction lines generalizing mode depth with
  | nil => simp [readLines] at h
  | cons line rest ih =>
      simp only [readLines] at h
      rcases List.mem_cons.1 h with rfl | h
      · exact mode.isChain_opens_readFrom true line (Or.inl hmode)
      · exact ih (Mode.isOutside_afterBreak _) h

/-- Every literal of a text starts with a quote. -/
def Source.OpensLiterals (s : Source) : Prop :=
  ∀ l ∈ s.lines, l.OpensLiterals

theorem Source.opensLiterals_scan (text : List Char) : (scan text).OpensLiterals :=
  fun _ h => opensLiterals_of_mem_readLines Mode.isOutside_code h

/-! ### Lines -/

/-- A line with what is strictly inside its literals overwritten. -/
def Line.redacted (l : Line) : Line :=
  ⟨l.cells.map Cell.redacted, l.startDepth⟩

/-- A spot, overwritten if it is strictly inside a literal.  A line break stays one. -/
def Spot.redacted (x : Spot) : Spot :=
  if x.isBreak then x else ⟨x.position, x.cell.redacted⟩

namespace Spot

variable (x : Spot)

theorem redacted_of_isBreak (h : x.isBreak = true) : x.redacted = x := by
  simp [redacted, h]

theorem redacted_of_not_isBreak (h : x.isBreak = false) :
    x.redacted = ⟨x.position, x.cell.redacted⟩ := by
  simp [redacted, h]

@[simp] theorem redacted_position : x.redacted.position = x.position := by
  unfold redacted
  split <;> rfl

@[simp] theorem isBreak_redacted : x.redacted.isBreak = x.isBreak := by
  cases h : x.isBreak with
  | true => rw [redacted_of_isBreak x h, h]
  | false =>
      rw [redacted_of_not_isBreak x h]
      rcases x.cell.redacted_char_cases with hchar | ⟨-, hchar⟩
      · simpa only [isBreak, hchar] using h
      · simp [isBreak, hchar]

@[simp] theorem isCodeChar_redacted (char : Char) :
    x.redacted.cell.isCodeChar char = x.cell.isCodeChar char := by
  unfold redacted
  split
  · rfl
  · exact x.cell.isCodeChar_redacted char

end Spot

/-- What is strictly inside literals has no part in the brace pairs. -/
theorem pairBraces_redacted (pending : List Position) (spots : List Spot) :
    pairBraces pending (spots.map Spot.redacted) = pairBraces pending spots := by
  induction spots generalizing pending with
  | nil => rfl
  | cons x rest ih =>
      simp only [List.map_cons, pairBraces, Spot.isCodeChar_redacted, Spot.redacted_position, ih]

theorem spotsOfCells_redacted (n column : Nat) {cells : List Cell}
    (h : ∀ c ∈ cells, c.char ≠ '\n') :
    spotsOfCells n column (cells.map Cell.redacted) =
      (spotsOfCells n column cells).map Spot.redacted := by
  induction cells generalizing column with
  | nil => rfl
  | cons c rest ih =>
      obtain ⟨hc, hrest⟩ := List.forall_mem_cons.1 h
      have hbreak : Spot.isBreak ⟨⟨n, column⟩, c⟩ = false := by simpa [Spot.isBreak] using hc
      simp only [List.map_cons, spotsOfCells, ih _ hrest, Spot.redacted_of_not_isBreak _ hbreak]

namespace Line

@[simp] theorem redacted_length (l : Line) : l.redacted.length = l.length := by
  simp [redacted, length]

@[simp] theorem firstCode?_redacted (l : Line) : l.redacted.firstCode? = l.firstCode? := by
  simp only [firstCode?, redacted, List.findIdx?_map, Function.comp_def, isToken_redacted]

theorem breakRegion_redacted (l : Line) : l.redacted.breakRegion = l.breakRegion := by
  simp only [breakRegion, redacted, List.getLast?_map, Option.map_map, Function.comp_def,
    Cell.redacted_region]

theorem breakSpot_redacted (l : Line) (n : Nat) :
    l.redacted.breakSpot n = (l.breakSpot n).redacted := by
  rw [Spot.redacted_of_isBreak _ rfl, breakSpot, breakSpot, redacted_length, breakRegion_redacted]

theorem spotsFrom_redacted {l : Line} (h : '\n' ∉ l.text) (n column : Nat) :
    l.redacted.spotsFrom n column = (l.spotsFrom n column).map Spot.redacted := by
  have hcells : ∀ c ∈ l.cells.drop column, c.char ≠ '\n' := by
    intro c hc heq
    exact h (List.mem_map.2 ⟨c, List.mem_of_mem_drop hc, heq⟩)
  rw [spotsFrom_eq, spotsFrom_eq, List.map_append, breakSpot_redacted, redacted,
    ← List.map_drop, spotsOfCells_redacted n column hcells]
  rfl

end Line

theorem spotsOfLines_redacted (n : Nat) {lines : List Line} (h : ∀ l ∈ lines, '\n' ∉ l.text) :
    spotsOfLines n (lines.map Line.redacted) = (spotsOfLines n lines).map Spot.redacted := by
  induction lines generalizing n with
  | nil => rfl
  | cons l rest ih =>
      obtain ⟨hl, hrest⟩ := List.forall_mem_cons.1 h
      simp only [List.map_cons, spotsOfLines, List.map_append, l.spotsFrom_redacted hl, ih _ hrest]

/-! ### Scanned texts -/

namespace Source

/-- A scanned text with what is strictly inside its literals overwritten. -/
def redacted (s : Source) : Source :=
  ⟨s.lines.map Line.redacted, s.bracePairs⟩

variable (s : Source)

theorem line?_redacted (n : Nat) : s.redacted.line? n = (s.line? n).map Line.redacted := by
  simp only [line?, redacted, List.getElem?_map]

@[simp] theorem endPosition_redacted : s.redacted.endPosition = s.endPosition := by
  have hcount : s.redacted.lineCount = s.lineCount := by
    simp only [lineCount, redacted, List.length_map]
  simp only [endPosition, hcount, line?_redacted, Option.map_map, Function.comp_def,
    Line.redacted_length]

variable {s}

theorem spotsFrom_redacted (h : s.HasNoBreaks) (p : Position) :
    s.redacted.spotsFrom p = (s.spotsFrom p).map Spot.redacted := by
  have hdrop : ∀ l ∈ s.lines.drop p.line, '\n' ∉ l.text :=
    fun l hl => h l (List.mem_of_mem_drop hl)
  simp only [spotsFrom, redacted, ← List.map_drop]
  cases hlines : s.lines.drop p.line with
  | nil => rfl
  | cons l rest =>
      rw [hlines] at hdrop
      obtain ⟨hl, hrest⟩ := List.forall_mem_cons.1 hdrop
      simp only [List.map_cons, List.map_append, Line.spotsFrom_redacted hl,
        spotsOfLines_redacted _ hrest]

end Source

end ScriptOutline
