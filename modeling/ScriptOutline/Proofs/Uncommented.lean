/-
**Texts with spaces in place of their comments.**

Every character of a comment may be written as a space.  The reader then never enters a comment,
and apart from that it goes through the same modes, so that the cells that it reads are the same
outside of the comments.  One thing stands in the way: behind a space a semicolon starts a comment,
and so no semicolon of the code may come directly behind a comment.

Main definitions:

* `Cell.uncommented`, `Line.uncommented`, `Source.uncommented` — the same with spaces of the code in
  place of comments;
* `uncommentedText` — a text with spaces in place of its comments;
* `Source.SemicolonsApart` — no semicolon of the code comes directly behind a comment.

Main results:

* `Mode.readFrom_uncommented` — how a line is read without its comments;
* `linesOf_uncommentedText` — the lines of a text without its comments;
* `pairBraces_uncommented` — comments have no part in the brace pairs;
* `scan_uncommentedText` — **scanning a text without its comments**.
-/

import Mathlib.Data.List.Chain
import ScriptOutline.Proofs.BracePairs
import ScriptOutline.Proofs.TextLines

set_option relaxedAutoImplicit false
set_option autoImplicit false

namespace ScriptOutline

/-! ### Cells -/

namespace Cell

variable {c : Cell}

/-- A cell, or a space of the code in place of a comment. -/
def uncommented (c : Cell) : Cell :=
  if c.isComment then space else c

theorem uncommented_of_isComment (h : c.isComment = true) : c.uncommented = space :=
  if_pos h

theorem uncommented_of_not (h : c.isComment = false) : c.uncommented = c := by
  simp [uncommented, h]

theorem isCode_of_isComment (h : c.isComment = true) : c.isCode = false := by
  obtain ⟨char, region⟩ := c
  cases region <;> first | rfl | simp [isComment, Region.isComment] at h

theorem uncommented_char (c : Cell) : c.uncommented.char = c.visible := by
  obtain ⟨char, region⟩ := c
  cases region <;> rfl

@[simp] theorem isComment_uncommented (c : Cell) : c.uncommented.isComment = false := by
  obtain ⟨char, region⟩ := c
  cases region <;> rfl

@[simp] theorem visible_uncommented (c : Cell) : c.uncommented.visible = c.visible := by
  obtain ⟨char, region⟩ := c
  cases region <;> rfl

@[simp] theorem masked_uncommented (c : Cell) : c.uncommented.masked = c.masked := by
  obtain ⟨char, region⟩ := c
  cases region <;> rfl

/-- A character other than a space is code in both texts, or in neither. -/
theorem isCodeChar_uncommented {char : Char} (hchar : char ≠ ' ') (c : Cell) :
    c.uncommented.isCodeChar char = c.isCodeChar char := by
  cases h : c.isComment with
  | true =>
      have hspace : space.isCodeChar char = false := by
        simp [isCodeChar, space, hchar.symm]
      rw [uncommented_of_isComment h, hspace, isCodeChar, isCode_of_isComment h, Bool.false_and]
  | false => rw [uncommented_of_not h]

/-- What can be seen of a cell is its character, or a space in its place. -/
theorem visible_cases (c : Cell) : c.visible = c.char ∨ c.visible = ' ' := by
  unfold visible
  split
  · exact Or.inr rfl
  · exact Or.inl rfl

/-- The first character without comments is the first one, or is a space in its place. -/
theorem head?_visible (cells : List Cell) :
    (cells.map visible).head? = (cells.map char).head? ∨
      (cells.map visible).head? = some ' ' ∧
        (cells.map char).head?.isSome = true := by
  cases cells with
  | nil => exact Or.inl rfl
  | cons c rest =>
      rcases c.visible_cases with h | h
      · exact Or.inl (congrArg some h)
      · exact Or.inr ⟨congrArg some h, rfl⟩

end Cell

/-! ### Reading -/

namespace Mode

/-- The mode of a reader that never enters a comment. -/
def uncommented : Mode → Mode
  | .lineComment | .blockComment | .opening | .closing => .code
  | mode => mode

theorem uncommented_afterBreak (mode : Mode) :
    mode.afterBreak.uncommented = mode.uncommented.afterBreak := by
  cases mode <;> rfl

/-- A space between tokens is code, and the mode stays the same. -/
theorem step_space (fresh : Bool) (ahead : Option Char) :
    Mode.code.step fresh ' ' ahead = (.code, .code) := by
  simp [step]

/-- Without comments the modes around a character of a comment are code, and all others stay. -/
theorem uncommented_of_step {mode after : Mode} {fresh : Bool} {c : Char} {ahead : Option Char}
    {region : Region} (hstep : mode.step fresh c ahead = (region, after)) :
    (mode.uncommented = if region.isComment then .code else mode) ∧
      after.uncommented = if region.isComment then .code else after := by
  cases mode with
  | code =>
      simp only [step] at hstep
      split at hstep
      · cases hstep
        exact ⟨rfl, rfl⟩
      · split at hstep
        · cases hstep
          exact ⟨rfl, rfl⟩
        · split at hstep
          · cases hstep
            exact ⟨rfl, rfl⟩
          · split at hstep <;>
            · cases hstep
              exact ⟨rfl, rfl⟩
  | lineComment =>
      cases hstep
      exact ⟨rfl, rfl⟩
  | blockComment =>
      simp only [step] at hstep
      split at hstep <;>
      · cases hstep
        exact ⟨rfl, rfl⟩
  | opening =>
      cases hstep
      exact ⟨rfl, rfl⟩
  | closing =>
      cases hstep
      exact ⟨rfl, rfl⟩
  | literal quote =>
      simp only [step] at hstep
      split at hstep
      · cases hstep
        exact ⟨rfl, rfl⟩
      · split at hstep <;>
        · cases hstep
          exact ⟨rfl, rfl⟩
  | escaped quote =>
      cases hstep
      exact ⟨rfl, rfl⟩

/--
A character outside of comments is read as before.  What comes after it is the same or has become a
space; and if only one of the two texts has a blank before it, it is no semicolon of the code.
-/
theorem step_eq_of_not_comment {mode after : Mode} {fresh fresh' : Bool} {c : Char}
    {ahead ahead' : Option Char} {region : Region}
    (hstep : mode.step fresh c ahead = (region, after)) (hregion : region.isComment = false)
    (hfresh : fresh' = fresh ∨ (⟨c, region⟩ : Cell) ≠ ⟨';', .code⟩)
    (hahead : ahead' = ahead ∨ ahead' = some ' ' ∧ ahead.isSome = true) :
    mode.step fresh' c ahead' = (region, after) := by
  cases mode with
  | code =>
      simp only [step] at hstep ⊢
      split at hstep
      · cases hstep
        exact Bool.noConfusion hregion
      · next hmark =>
          split at hstep
          · cases hstep
            exact Bool.noConfusion hregion
          · next hopening =>
              -- neither mark comes up in the other text: what is new there is a space
              have hmark' : ¬(c = ';' && fresh') = true := by
                rcases hfresh with rfl | hcell
                · exact hmark
                · intro h
                  simp only [Bool.and_eq_true, decide_eq_true_eq] at h
                  obtain ⟨rfl, -⟩ := h
                  cases hstep
                  exact hcell rfl
              have hopening' : ¬(c = '/' && ahead' = some '*') = true := by
                rcases hahead with rfl | ⟨rfl, -⟩
                · exact hopening
                · simp
              rw [if_neg hmark', if_neg hopening', hstep]
  | lineComment =>
      cases hstep
      exact Bool.noConfusion hregion
  | blockComment =>
      simp only [step] at hstep
      split at hstep <;>
      · cases hstep
        exact Bool.noConfusion hregion
  | opening =>
      cases hstep
      exact Bool.noConfusion hregion
  | closing =>
      cases hstep
      exact Bool.noConfusion hregion
  | literal quote =>
      have hsome : ahead'.isSome = ahead.isSome := by
        rcases hahead with rfl | ⟨rfl, hsome⟩
        · rfl
        · exact hsome.symm
      simp only [step, hsome] at hstep ⊢
      exact hstep
  | escaped quote => exact hstep

/-- One character, read with comments and without. -/
theorem step_uncommented {mode after : Mode} {fresh fresh' : Bool} {c : Char}
    {ahead ahead' : Option Char} {region : Region}
    (hstep : mode.step fresh c ahead = (region, after))
    (hfresh : fresh' = fresh ∨ (⟨c, region⟩ : Cell) ≠ ⟨';', .code⟩)
    (hahead : ahead' = ahead ∨ ahead' = some ' ' ∧ ahead.isSome = true) :
    mode.uncommented.step fresh' (Cell.visible ⟨c, region⟩) ahead' =
      ((Cell.uncommented ⟨c, region⟩).region, after.uncommented) := by
  obtain ⟨hmode, hafter⟩ := uncommented_of_step hstep
  rw [hmode, hafter]
  cases hregion : region.isComment with
  | true =>
      have hcell : Cell.isComment ⟨c, region⟩ = true := hregion
      rw [← Cell.uncommented_char, Cell.uncommented_of_isComment hcell]
      exact step_space fresh' ahead'
  | false =>
      have hcell : Cell.isComment ⟨c, region⟩ = false := hregion
      rw [← Cell.uncommented_char, Cell.uncommented_of_not hcell]
      exact step_eq_of_not_comment hstep hregion hfresh hahead

end Mode

/-- No semicolon of the code comes directly behind a comment. -/
def SemicolonsApart (cells : List Cell) : Prop :=
  cells.IsChain fun c d => c.isComment = true → d ≠ ⟨';', .code⟩

instance (cells : List Cell) : Decidable (SemicolonsApart cells) :=
  inferInstanceAs (Decidable (List.IsChain _ cells))

/--
A line without its comments is read as the line itself, up to its comments.  That only one of the
two has a blank before it does not matter if it does not start with a semicolon of the code.
-/
theorem Mode.readFrom_uncommented (mode : Mode) (fresh fresh' : Bool) (line : List Char)
    (hfresh : fresh' = fresh ∨ (mode.readFrom fresh line).1.head? ≠ some ⟨';', .code⟩)
    (happart : SemicolonsApart (mode.readFrom fresh line).1) :
    mode.uncommented.readFrom fresh' ((mode.readFrom fresh line).1.map Cell.visible) =
      ((mode.readFrom fresh line).1.map Cell.uncommented,
        (mode.readFrom fresh line).2.uncommented) := by
  induction line generalizing mode fresh fresh' with
  | nil => rfl
  | cons c rest ih =>
      cases hstep : mode.step fresh c rest.head? with
      | mk region after =>
          have hchars := after.readFrom_chars (isBlank c) rest
          simp only [readFrom, hstep, List.head?_cons, ne_eq, Option.some.injEq] at hfresh happart ⊢
          rw [SemicolonsApart, List.isChain_cons] at happart
          have hahead := Cell.head?_visible (after.readFrom (isBlank c) rest).1
          rw [hchars] at hahead
          simp only [List.map_cons, readFrom, step_uncommented hstep hfresh hahead]
          have hblank : isBlank (Cell.visible ⟨c, region⟩) = isBlank c ∨
              (after.readFrom (isBlank c) rest).1.head? ≠ some ⟨';', .code⟩ := by
            cases hcomment : Cell.isComment ⟨c, region⟩ with
            | true => exact Or.inr fun hhead => happart.1 _ hhead hcomment rfl
            | false => exact Or.inl (by simp [Cell.visible, hcomment])
          rw [ih after (isBlank c) _ hblank happart.2, ← Cell.uncommented_char]

/-! ### Lines -/

/-- A line with spaces of the code in place of its comments. -/
def Line.uncommented (l : Line) : Line :=
  ⟨l.cells.map Cell.uncommented, l.startDepth⟩

/-- Comments open and close no braces. -/
theorem depthAfter_uncommented (depth : Nat) (cells : List Cell) :
    depthAfter depth (cells.map Cell.uncommented) = depthAfter depth cells := by
  have hopen : '{' ≠ ' ' := by decide
  have hclose : '}' ≠ ' ' := by decide
  simp only [depthAfter, List.foldl_map, depthStep, Cell.isCodeChar_uncommented hopen,
    Cell.isCodeChar_uncommented hclose]
  rfl

/-- Lines without their comments are read as the lines themselves, up to the comments. -/
theorem readLines_uncommented (mode : Mode) (depth : Nat) (lines : List (List Char))
    (h : ∀ l ∈ readLines mode depth lines, SemicolonsApart l.cells) :
    readLines mode.uncommented depth ((readLines mode depth lines).map Line.codeText) =
      (readLines mode depth lines).map Line.uncommented := by
  induction lines generalizing mode depth with
  | nil => rfl
  | cons line rest ih =>
      simp only [readLines, List.mem_cons, forall_eq_or_imp] at h
      obtain ⟨hline, hrest⟩ := h
      have hread : mode.uncommented.read ((mode.read line).1.map Cell.visible) =
          ((mode.read line).1.map Cell.uncommented, (mode.read line).2.uncommented) :=
        mode.readFrom_uncommented true true line (Or.inl rfl) hline
      simp only [readLines, List.map_cons, Line.codeText, hread, depthAfter_uncommented,
        ← Mode.uncommented_afterBreak]
      rw [← ih _ _ hrest]
      rfl

/-! ### Texts -/

/-- A piece of a text with spaces in place of comments.  What its line goes without stays. -/
def Line.uncommentedPiece (l : Line) (piece : List Char) : List Char :=
  l.codeText ++ piece.drop l.length

/-- A text with a space in place of every character of its comments. -/
def uncommentedText (text : List Char) : List Char :=
  List.intercalate ['\n']
    (List.zipWith Line.uncommentedPiece (Source.scan text).lines (splitBreaks text))

namespace Line

variable {l : Line}

theorem text_mem_of_mem_readLines {mode : Mode} {depth : Nat} {lines : List (List Char)}
    (h : l ∈ readLines mode depth lines) : l.text ∈ lines := by
  induction lines generalizing mode depth with
  | nil => simp [readLines] at h
  | cons line rest ih =>
      simp only [readLines, List.mem_cons] at h
      rcases h with rfl | h
      · simp [text]
      · exact List.mem_cons_of_mem _ (ih h)

/-- A character of the uncommented text is one of the line, or a space. -/
theorem mem_codeText {c : Char} (h : c ∈ l.codeText) : c ∈ l.text ∨ c = ' ' := by
  obtain ⟨cell, hcell, rfl⟩ := List.mem_map.1 h
  rcases cell.visible_cases with h | h
  · exact Or.inl (List.mem_map.2 ⟨cell, hcell, h.symm⟩)
  · exact Or.inr h

theorem getLast?_codeText (h : l.codeText.getLast? = some '\r') : l.text.getLast? = some '\r' := by
  rw [codeText, List.getLast?_map, Option.map_eq_some_iff] at h
  obtain ⟨cell, hcell, hvisible⟩ := h
  rw [text, List.getLast?_map, hcell, Option.map_some, Option.some.injEq]
  rcases cell.visible_cases with h | h
  · rw [← h, hvisible]
  · rw [hvisible] at h
    exact absurd h (by decide)

/-- The line of an uncommented piece. -/
theorem dropReturn_uncommentedPiece {piece : List Char} (h : l.text = dropReturn piece) :
    dropReturn (l.uncommentedPiece piece) = l.codeText := by
  have hlength : l.length = (dropReturn piece).length := by
    rw [← h, text, List.length_map, length]
  rw [uncommentedPiece, hlength]
  rcases dropReturn_cases piece with hpiece | ⟨hlast, hpiece⟩
  · have hdrop : piece.drop (dropReturn piece).length = ['\r'] := by
      conv => lhs; arg 2; rw [hpiece]
      exact List.drop_left
    rw [hdrop]
    simp [dropReturn]
  · rw [hpiece, List.drop_length, List.append_nil]
    refine if_neg ?_
    intro hcode
    rw [hpiece] at h
    exact hlast (h ▸ getLast?_codeText hcode)

theorem not_mem_uncommentedPiece {piece : List Char} (h : l.text = dropReturn piece)
    (hpiece : '\n' ∉ piece) : '\n' ∉ l.uncommentedPiece piece := by
  intro hmem
  rcases List.mem_append.1 hmem with hmem | hmem
  · rcases mem_codeText hmem with hmem | heq
    · rw [h] at hmem
      exact not_mem_dropReturn hpiece hmem
    · exact absurd heq (by decide)
  · exact hpiece (List.mem_of_mem_drop hmem)

end Line

/-- The lines of uncommented pieces, which hold no line feed. -/
theorem map_uncommentedPiece (mode : Mode) (depth : Nat) {pieces : List (List Char)}
    (h : ∀ piece ∈ pieces, '\n' ∉ piece) :
    (List.zipWith Line.uncommentedPiece (readLines mode depth (pieces.map dropReturn)) pieces).map
        dropReturn = (readLines mode depth (pieces.map dropReturn)).map Line.codeText ∧
      ∀ piece ∈ List.zipWith Line.uncommentedPiece
        (readLines mode depth (pieces.map dropReturn)) pieces, '\n' ∉ piece := by
  induction pieces generalizing mode depth with
  | nil => exact ⟨rfl, by simp⟩
  | cons piece rest ih =>
      obtain ⟨hpiece, hrest⟩ := List.forall_mem_cons.1 h
      obtain ⟨hlines, hnot⟩ := ih (mode.read (dropReturn piece)).2.afterBreak
        (depthAfter depth (mode.read (dropReturn piece)).1) hrest
      have htext : Line.text ⟨(mode.read (dropReturn piece)).1, depth⟩ = dropReturn piece :=
        mode.read_chars (dropReturn piece)
      simp only [List.map_cons, readLines, List.zipWith_cons_cons]
      constructor
      · rw [Line.dropReturn_uncommentedPiece htext, hlines]
      · exact List.forall_mem_cons.2 ⟨Line.not_mem_uncommentedPiece htext hpiece, hnot⟩

/-- The lines of a text without its comments. -/
theorem linesOf_uncommentedText (text : List Char) :
    linesOf (uncommentedText text) = (Source.scan text).lines.map Line.codeText := by
  have hpieces : ∀ piece ∈ splitBreaks text, '\n' ∉ piece :=
    fun piece h => not_mem_of_mem_splitBreaks h
  obtain ⟨hlines, hnot⟩ := map_uncommentedPiece .code 0 hpieces
  have hne : List.zipWith Line.uncommentedPiece (Source.scan text).lines (splitBreaks text) ≠ [] := by
    rw [← List.length_pos_iff, List.length_zipWith, Source.scan, readLines_length, linesOf,
      List.length_map, Nat.min_self, List.length_pos_iff]
    exact splitBreaks_ne_nil text
  rw [linesOf, uncommentedText, splitBreaks_intercalate hne hnot]
  exact hlines

/-! ### Spots -/

/-- A spot with a space of the code in place of a comment.  A line break stays one. -/
def Spot.uncommented (x : Spot) : Spot :=
  if x.cell.isComment then ⟨x.position, ⟨if x.isBreak then '\n' else ' ', .code⟩⟩ else x

namespace Spot

variable (x : Spot)

@[simp] theorem uncommented_position : x.uncommented.position = x.position := by
  cases h : x.cell.isComment <;> simp [uncommented, h]

@[simp] theorem isBreak_uncommented : x.uncommented.isBreak = x.isBreak := by
  cases h : x.cell.isComment <;> cases hbreak : x.isBreak <;> simp_all [uncommented, isBreak]

theorem uncommented_of_not (h : x.cell.isComment = false) : x.uncommented = x := by
  simp [uncommented, h]

/-- Apart from line breaks, it is the cell that changes. -/
theorem uncommented_eq (h : x.isBreak = false) :
    x.uncommented = ⟨x.position, x.cell.uncommented⟩ := by
  cases hc : x.cell.isComment with
  | true => simp [uncommented, Cell.uncommented, Cell.space, hc, h]
  | false => simp [uncommented, Cell.uncommented, hc]

/-- A character other than a space and a line break is code in both texts, or in neither. -/
theorem isCodeChar_uncommented {char : Char} (hspace : char ≠ ' ') (hbreak : char ≠ '\n') :
    x.uncommented.cell.isCodeChar char = x.cell.isCodeChar char := by
  cases hx : x.isBreak with
  | true =>
      have hx' : x.uncommented.isBreak = true := by rw [isBreak_uncommented, hx]
      simp only [isBreak, decide_eq_true_eq] at hx hx'
      simp [Cell.isCodeChar, hx, hx', hbreak.symm]
  | false => rw [uncommented_eq x hx, Cell.isCodeChar_uncommented hspace]

end Spot

/-- Comments have no part in the brace pairs. -/
theorem pairBraces_uncommented (pending : List Position) (spots : List Spot) :
    pairBraces pending (spots.map Spot.uncommented) = pairBraces pending spots := by
  induction spots generalizing pending with
  | nil => rfl
  | cons x rest ih =>
      have hopen : x.uncommented.cell.isCodeChar '{' = x.cell.isCodeChar '{' :=
        x.isCodeChar_uncommented (by decide) (by decide)
      have hclose : x.uncommented.cell.isCodeChar '}' = x.cell.isCodeChar '}' :=
        x.isCodeChar_uncommented (by decide) (by decide)
      simp only [List.map_cons, pairBraces, hopen, hclose, Spot.uncommented_position, ih]

theorem spotsOfCells_uncommented (n column : Nat) {cells : List Cell}
    (h : ∀ c ∈ cells, c.char ≠ '\n') :
    spotsOfCells n column (cells.map Cell.uncommented) =
      (spotsOfCells n column cells).map Spot.uncommented := by
  induction cells generalizing column with
  | nil => rfl
  | cons c rest ih =>
      obtain ⟨hc, hrest⟩ := List.forall_mem_cons.1 h
      have hbreak : Spot.isBreak ⟨⟨n, column⟩, c⟩ = false := by simpa [Spot.isBreak] using hc
      simp only [List.map_cons, spotsOfCells, ih _ hrest, Spot.uncommented_eq _ hbreak]

namespace Line

@[simp] theorem uncommented_length (l : Line) : l.uncommented.length = l.length := by
  simp [uncommented, length]

/-- A line break belongs to the code if it belonged to a comment. -/
theorem breakSpot_uncommented (l : Line) (n : Nat) :
    l.uncommented.breakSpot n = (l.breakSpot n).uncommented := by
  have hlast (last : Option Cell) :
      ((last.map Cell.uncommented).map Cell.region).getD .code =
        if ((last.map Cell.region).getD .code).isComment then .code
        else (last.map Cell.region).getD .code := by
    cases last with
    | none => rfl
    | some c =>
        obtain ⟨char, region⟩ := c
        cases region <;> rfl
  have hregion : l.uncommented.breakRegion =
      if l.breakRegion.isComment then .code else l.breakRegion := by
    rw [breakRegion, uncommented, List.getLast?_map]
    exact hlast l.cells.getLast?
  simp only [breakSpot, uncommented_length, hregion, Spot.uncommented, Cell.isComment,
    Spot.isBreak]
  split <;> rfl

theorem spotsFrom_uncommented {l : Line} (h : '\n' ∉ l.text) (n column : Nat) :
    l.uncommented.spotsFrom n column = (l.spotsFrom n column).map Spot.uncommented := by
  have hcells : ∀ c ∈ l.cells.drop column, c.char ≠ '\n' := by
    intro c hc heq
    exact h (List.mem_map.2 ⟨c, List.mem_of_mem_drop hc, heq⟩)
  rw [spotsFrom_eq, spotsFrom_eq, List.map_append, breakSpot_uncommented, uncommented,
    ← List.map_drop, spotsOfCells_uncommented n column hcells]
  rfl

end Line

theorem spotsOfLines_uncommented (n : Nat) {lines : List Line} (h : ∀ l ∈ lines, '\n' ∉ l.text) :
    spotsOfLines n (lines.map Line.uncommented) =
      (spotsOfLines n lines).map Spot.uncommented := by
  induction lines generalizing n with
  | nil => rfl
  | cons l rest ih =>
      obtain ⟨hl, hrest⟩ := List.forall_mem_cons.1 h
      simp only [List.map_cons, spotsOfLines, List.map_append, l.spotsFrom_uncommented hl,
        ih _ hrest]

/-! ### Scanned texts -/

namespace Source

/-- A scanned text with spaces of the code in place of its comments. -/
def uncommented (s : Source) : Source :=
  ⟨s.lines.map Line.uncommented, s.bracePairs⟩

/-- No semicolon of the code comes directly behind a comment. -/
def SemicolonsApart (s : Source) : Prop :=
  ∀ l ∈ s.lines, ScriptOutline.SemicolonsApart l.cells

instance (s : Source) : Decidable s.SemicolonsApart :=
  inferInstanceAs (Decidable (∀ l ∈ s.lines, ScriptOutline.SemicolonsApart l.cells))

/-- No line holds a line feed. -/
def HasNoBreaks (s : Source) : Prop :=
  ∀ l ∈ s.lines, '\n' ∉ l.text

theorem hasNoBreaks_scan (text : List Char) : (scan text).HasNoBreaks :=
  fun _ h => not_mem_of_mem_linesOf (Line.text_mem_of_mem_readLines h)

/-- Scanning a text without its comments gives what scanning the text gives, up to the comments. -/
theorem scan_uncommentedText {text : List Char} (h : (scan text).SemicolonsApart) :
    scan (uncommentedText text) = (scan text).uncommented := by
  have hlines : readLines .code 0 (linesOf (uncommentedText text)) =
      (scan text).lines.map Line.uncommented := by
    rw [linesOf_uncommentedText]
    exact readLines_uncommented .code 0 (linesOf text) h
  have hspots : spotsOfLines 0 ((scan text).lines.map Line.uncommented) =
      (spotsOfLines 0 (scan text).lines).map Spot.uncommented :=
    spotsOfLines_uncommented 0 (hasNoBreaks_scan text)
  calc scan (uncommentedText text)
    _ = ⟨(scan text).lines.map Line.uncommented,
          pairBraces [] (spotsOfLines 0 ((scan text).lines.map Line.uncommented))⟩ := by
        rw [scan, hlines]
    _ = (scan text).uncommented := by
        rw [hspots, pairBraces_uncommented]
        rfl

end Source

example : uncommentedText "f(/* a */ x) \x7b ; b\n\x7d".toList =
    "f(        x) \x7b    \n\x7d".toList := by decide

end ScriptOutline
