/-
**Blanks at the ends of comment lines.**

Blanks behind a line that ends in a block comment are part of the comment.  All they change is what
an empty line holds: it has no character that could be one of the comment until it gets a blank.

Main definitions:

* `paddedText` — a text with blanks behind the lines that end in a block comment;
* `Line.padded` — a line with blanks of a block comment behind it;
* `Source.HoldsComment`, `Source.HasText` — lines of comments, and lines with text;
* `IsFilled` — an empty line that gets a blank.

Main results:

* `linesOf_paddedText` — the blanks stand at the ends of lines;
* `readLines_padded`, `scan_paddedText_lines` — **the blanks are cells of the comment**;
* `cleanComment_padded` — they are no part of the text of a comment line;
* `holdsComment_paddedText` — the lines that hold comments are those that did before, and those that
  are filled.
-/

import ScriptOutline.Proofs.Concatenation
import ScriptOutline.Proofs.ParameterParts
import ScriptOutline.Proofs.TrailingComments

set_option relaxedAutoImplicit false
set_option autoImplicit false

namespace ScriptOutline

/-! ### Texts with blanks in their comments -/

/-- Whether a line of a text ends in a block comment that goes on behind it. -/
def endsInComment (text : List Char) (n : Nat) : Bool :=
  modeAfter .code ((linesOf text).take (n + 1)) = .blockComment

/-- The number of blanks that a line gets: none where it does not end in a block comment. -/
def commentPads (pads : Nat → Nat) (text : List Char) (n : Nat) : Nat :=
  if endsInComment text n then pads n else 0

/-- A piece of a text with blanks behind its line, before the carriage return that it may have. -/
def padPiece (k : Nat) (piece : List Char) : List Char :=
  dropReturn piece ++ List.replicate k ' ' ++ piece.drop (dropReturn piece).length

/-- A text with blanks behind the lines that end in a block comment. -/
def paddedText (pads : Nat → Nat) (text : List Char) : List Char :=
  List.intercalate ['\n']
    ((splitBreaks text).mapIdx fun n piece => padPiece (commentPads pads text n) piece)

theorem not_mem_padPiece (k : Nat) {piece : List Char} (h : '\n' ∉ piece) :
    '\n' ∉ padPiece k piece := by
  simp only [padPiece, List.mem_append, not_or, List.mem_replicate]
  exact ⟨⟨not_mem_dropReturn h, by simp⟩, fun hmem => h (List.mem_of_mem_drop hmem)⟩

/-- The blanks stand behind the line. -/
theorem dropReturn_padPiece (k : Nat) (piece : List Char) :
    dropReturn (padPiece k piece) = dropReturn piece ++ List.replicate k ' ' := by
  rcases dropReturn_cases piece with heq | ⟨hlast, heq⟩
  · have hdrop : piece.drop (dropReturn piece).length = ['\r'] := by
      have hall := congrArg (List.drop (dropReturn piece).length) heq
      rwa [List.drop_left] at hall
    rw [padPiece, hdrop, dropReturn, if_pos (by simp), List.dropLast_concat]
  · rw [padPiece, heq, List.drop_length, List.append_nil, dropReturn, if_neg]
    cases k with
    | zero => simpa using hlast
    | succ k => simp [List.replicate_succ']

theorem linesOf_paddedText (pads : Nat → Nat) (text : List Char) :
    linesOf (paddedText pads text) = (linesOf text).mapIdx fun n line =>
      line ++ List.replicate (commentPads pads text n) ' ' := by
  have hne : ((splitBreaks text).mapIdx fun n piece =>
      padPiece (commentPads pads text n) piece) ≠ [] := by
    simpa using splitBreaks_ne_nil text
  rw [linesOf, paddedText, splitBreaks_intercalate hne]
  · apply List.ext_getElem?
    intro n
    simp only [linesOf, List.getElem?_map, List.getElem?_mapIdx, Option.map_map]
    congr 1
    funext piece
    exact dropReturn_padPiece _ piece
  · intro piece hpiece
    obtain ⟨n, hn, rfl⟩ := List.mem_mapIdx.1 hpiece
    exact not_mem_padPiece _ (not_mem_of_mem_splitBreaks (List.getElem_mem hn))

/-! ### Scanning -/

/-- A blank of a block comment. -/
def Cell.pad : Cell :=
  ⟨' ', .blockComment⟩

/-- A line with blanks of a block comment behind it. -/
def Line.padded (k : Nat) (l : Line) : Line :=
  { l with cells := l.cells ++ List.replicate k Cell.pad }

theorem Line.extends_padded (k : Nat) (l : Line) : l.Extends (l.padded k) :=
  ⟨List.replicate k Cell.pad, fun c hc => by rw [(List.mem_replicate.1 hc).2]; rfl, rfl⟩

/-- Only a block comment goes on behind a line break. -/
theorem Mode.eq_of_afterBreak {mode : Mode} (h : mode.afterBreak = .blockComment) :
    mode = .blockComment := by
  cases mode with
  | blockComment => rfl
  | code => exact Mode.noConfusion h
  | lineComment => exact Mode.noConfusion h
  | opening => exact Mode.noConfusion h
  | closing => exact Mode.noConfusion h
  | literal quote => exact Mode.noConfusion h
  | escaped quote => exact Mode.noConfusion h

theorem readFrom_blanks (fresh : Bool) (k : Nat) :
    Mode.blockComment.readFrom fresh (List.replicate k ' ') =
      (List.replicate k Cell.pad, .blockComment) := by
  induction k generalizing fresh with
  | zero => rfl
  | succ k ih => simp [List.replicate_succ, Mode.readFrom, Mode.step, ih, Cell.pad]

/-- Blanks behind a line that ends in a block comment are part of the comment. -/
theorem read_padded {mode : Mode} {line : List Char} (h : (mode.read line).2 = .blockComment)
    (k : Nat) : mode.read (line ++ List.replicate k ' ') =
      ((mode.read line).1 ++ List.replicate k Cell.pad, .blockComment) := by
  have h' : (mode.readFrom true line).2 = .blockComment := h
  have hlast (quote : Quote) : (mode.readFrom true line).2 ≠ .literal quote := by
    rw [h']
    exact fun hq => Mode.noConfusion hq
  have hseam : ∀ c ∈ line.getLast?, ∀ d ∈ (List.replicate k ' ').head?,
      ¬Mode.IsCommentMark c d := by
    rintro c - d hd (⟨-, rfl⟩ | ⟨-, rfl⟩)
    · exact absurd (List.mem_replicate.1 (List.mem_of_mem_head? hd)).2 (by decide)
    · exact absurd (List.mem_replicate.1 (List.mem_of_mem_head? hd)).2 (by decide)
  rw [Mode.read, Mode.readFrom_append hlast hseam, h', readFrom_blanks]
  rfl

theorem depthAfter_pads (depth k : Nat) : depthAfter depth (List.replicate k Cell.pad) = depth := by
  induction k with
  | zero => rfl
  | succ k ih => exact ih

theorem readLines_padded {pads : Nat → Nat} {mode : Mode} {depth : Nat} {lines : List (List Char)}
    (h : ∀ n, 0 < pads n → modeAfter mode (lines.take (n + 1)) = .blockComment) :
    readLines mode depth (lines.mapIdx fun n line => line ++ List.replicate (pads n) ' ') =
      (readLines mode depth lines).mapIdx fun n l => l.padded (pads n) := by
  induction lines generalizing pads mode depth with
  | nil => rfl
  | cons line rest ih =>
      have hhead : mode.read (line ++ List.replicate (pads 0) ' ') =
          ((mode.read line).1 ++ List.replicate (pads 0) Cell.pad, (mode.read line).2) := by
        cases hpads : pads 0 with
        | zero => simp
        | succ k =>
            have hread := Mode.eq_of_afterBreak (h 0 (by omega))
            rw [read_padded hread, hread]
      have hdepth : depthAfter depth ((mode.read line).1 ++ List.replicate (pads 0) Cell.pad) =
          depthAfter depth (mode.read line).1 := by
        rw [depthAfter, List.foldl_append]
        exact depthAfter_pads _ _
      have hrest := @ih (fun n => pads (n + 1)) (mode.read line).2.afterBreak
        (depthAfter depth (mode.read line).1) fun n hn => h (n + 1) hn
      simp only [List.mapIdx_cons, readLines, hhead, hdepth, hrest, Line.padded]

/-- The blanks are cells of the comment. -/
theorem scan_paddedText_lines (pads : Nat → Nat) (text : List Char) :
    (Source.scan (paddedText pads text)).lines =
      (Source.scan text).lines.mapIdx fun n l => l.padded (commentPads pads text n) := by
  simp only [Source.scan, linesOf_paddedText]
  apply readLines_padded
  intro n hn
  unfold commentPads at hn
  split at hn
  · next hends => exact of_decide_eq_true hends
  · omega

/-- A line is read in the mode that the lines above it leave. -/
theorem getElem?_readLines {mode : Mode} {depth n : Nat} {lines : List (List Char)}
    {line : List Char} (h : lines[n]? = some line) :
    ∃ depth', (readLines mode depth lines)[n]? =
        some ⟨((modeAfter mode (lines.take n)).read line).1, depth'⟩ ∧
      modeAfter mode (lines.take (n + 1)) =
        ((modeAfter mode (lines.take n)).read line).2.afterBreak := by
  induction lines generalizing mode depth n with
  | nil => simp at h
  | cons head rest ih =>
      cases n with
      | zero =>
          obtain rfl : head = line := by simpa using h
          exact ⟨depth, rfl, rfl⟩
      | succ n => exact ih h

/-- A line that ends in a block comment has a character of it, unless it is empty. -/
theorem exists_comment_of_readFrom {mode : Mode} {fresh : Bool} {line : List Char}
    (hne : line ≠ []) (h : (mode.readFrom fresh line).2 = .blockComment) :
    (mode.readFrom fresh line).1.any Cell.isComment = true := by
  induction line generalizing mode fresh with
  | nil => exact absurd rfl hne
  | cons c rest ih =>
      simp only [Mode.readFrom, List.any_cons, Bool.or_eq_true] at h ⊢
      by_cases hrest : rest = []
      · subst hrest
        left
        simp only [List.head?_nil, Mode.readFrom] at h ⊢
        cases mode with
        | blockComment => simp [Mode.step, Cell.isComment, Region.isComment]
        | opening => rfl
        | code =>
            simp only [Mode.step] at h
            split_ifs at h
        | lineComment => exact Mode.noConfusion h
        | closing => exact Mode.noConfusion h
        | literal quote =>
            simp only [Mode.step] at h
            split_ifs at h
        | escaped quote => exact Mode.noConfusion h
      · exact Or.inr (ih hrest h)

/-! ### Lines that hold comments -/

namespace Source

/-- A line holds some comment, and blanks besides. -/
def HoldsComment (s : Source) (n : Nat) : Prop :=
  ∃ l, s.line? n = some l ∧ l.isCommentOnly = true

/-- A line has text besides the marks of comments. -/
def HasText (s : Source) (n : Nat) : Prop :=
  ∃ l, s.line? n = some l ∧ cleanComment l.text ≠ []

end Source

theorem Source.holdsComment_iff {s : Source} {n : Nat} {l : Line} (h : s.line? n = some l) :
    s.HoldsComment n ↔ l.isCommentOnly = true := by
  simp [Source.HoldsComment, h]

/-- An empty line of a block comment gets a blank. -/
def IsFilled (pads : Nat → Nat) (text : List Char) (n : Nat) : Prop :=
  (linesOf text)[n]? = some [] ∧ 0 < commentPads pads text n

theorem isCommentOnly_padded (k : Nat) (l : Line) : (l.padded k).isCommentOnly =
    ((l.cells.any Cell.isComment || decide (0 < k)) &&
      l.cells.all fun c => c.isComment || isBlank c.char) := by
  have hpad : Cell.pad.isComment = true := rfl
  cases k with
  | zero => simp [Line.padded, Line.isCommentOnly]
  | succ k => simp [Line.padded, Line.isCommentOnly, hpad]

theorem trim_append_spaces (cs : List Char) (k : Nat) :
    trim (cs ++ List.replicate k ' ') = trim cs := by
  have hone (cs : List Char) : trim (cs ++ [' ']) = trim cs := by
    have hspace : isBlank ' ' = true := by decide
    rw [trim, trimStart, List.dropWhile_append]
    split
    · next hempty =>
        rw [trim, trimStart, List.isEmpty_iff.1 hempty, List.dropWhile_cons_of_pos hspace]
        rfl
    · exact (trimEnd_append_singleton _ _).trans (if_pos hspace)
  induction k with
  | zero => simp
  | succ k ih => rw [List.replicate_succ', ← List.append_assoc, hone, ih]

/-- Blanks behind a comment line are no part of its text. -/
theorem cleanComment_padded (k : Nat) (l : Line) :
    cleanComment (l.padded k).text = cleanComment l.text := by
  have htext : (l.padded k).text = l.text ++ List.replicate k ' ' := by
    simp [Line.padded, Line.text, Cell.pad]
  rw [htext, cleanComment, trim_append_spaces, cleanComment]

section

variable (pads : Nat → Nat) (text : List Char)

theorem line?_paddedText (n : Nat) : (Source.scan (paddedText pads text)).line? n =
    ((Source.scan text).line? n).map (Line.padded (commentPads pads text n)) := by
  rw [Source.line?, scan_paddedText_lines, List.getElem?_mapIdx]
  rfl

/-- A line and its cells. -/
theorem exists_line {n : Nat} (hn : n < (Source.scan text).lineCount) :
    ∃ line l, (linesOf text)[n]? = some line ∧ (Source.scan text).line? n = some l ∧
      l.text = line ∧
        (line ≠ [] → endsInComment text n = true → l.cells.any Cell.isComment = true) := by
  rw [lineCount_scan] at hn
  have hline := List.getElem?_eq_getElem hn
  obtain ⟨depth, hread, hmode⟩ := @getElem?_readLines .code 0 n (linesOf text) _ hline
  refine ⟨_, _, hline, hread, Mode.read_chars _ _, fun hne hends => ?_⟩
  have hlast := of_decide_eq_true hends
  rw [hmode] at hlast
  exact exists_comment_of_readFrom hne (Mode.eq_of_afterBreak hlast)

theorem extends_paddedText : List.Forall₂ Line.Extends (Source.scan text).lines
    (Source.scan (paddedText pads text)).lines := by
  rw [scan_paddedText_lines, List.forall₂_iff_get]
  refine ⟨(List.length_mapIdx).symm, fun i _ _ => ?_⟩
  simp only [List.get_eq_getElem, List.getElem_mapIdx]
  exact Line.extends_padded _ _

theorem hasText_paddedText (n : Nat) :
    (Source.scan (paddedText pads text)).HasText n ↔ (Source.scan text).HasText n := by
  simp only [Source.HasText, line?_paddedText, Option.map_eq_some_iff]
  constructor
  · rintro ⟨-, ⟨l, hl, rfl⟩, htext⟩
    exact ⟨l, hl, by rwa [cleanComment_padded] at htext⟩
  · rintro ⟨l, hl, htext⟩
    exact ⟨_, ⟨l, hl, rfl⟩, by rwa [cleanComment_padded]⟩

variable {pads text}

/-- A line that is filled has no cells before. -/
theorem IsFilled.cells {n : Nat} (h : IsFilled pads text n) {l : Line}
    (hl : (Source.scan text).line? n = some l) : l.cells = [] := by
  have hn : n < (Source.scan text).lineCount := (List.getElem?_eq_some_iff.1 hl).1
  obtain ⟨line, l', hline, hl', htext, -⟩ := exists_line text hn
  obtain rfl := Option.some.inj (hl.symm.trans hl')
  obtain rfl := Option.some.inj (h.1.symm.trans hline)
  exact List.map_eq_nil_iff.1 htext

/-- An empty line holds no comment. -/
theorem IsFilled.not_holdsComment {n : Nat} (h : IsFilled pads text n) :
    ¬(Source.scan text).HoldsComment n := by
  rintro ⟨l, hl, honly⟩
  simp [Line.isCommentOnly, h.cells hl] at honly

/-- A line holds a comment besides its blanks if it did so before, or if it is filled. -/
theorem holdsComment_paddedText {n : Nat} (hn : n < (Source.scan text).lineCount) :
    (Source.scan (paddedText pads text)).HoldsComment n ↔
      (Source.scan text).HoldsComment n ∨ IsFilled pads text n := by
  obtain ⟨line, l, hline, hl, htext, hcomment⟩ := exists_line text hn
  simp only [Source.HoldsComment, line?_paddedText, hl, Option.map_some, Option.some.injEq,
    exists_eq_left', isCommentOnly_padded, Bool.and_eq_true, Bool.or_eq_true, decide_eq_true_eq]
  constructor
  · rintro ⟨hany | hpads, hall⟩
    · exact Or.inl (by rw [Line.isCommentOnly, hany, hall]; rfl)
    · by_cases hempty : line = []
      · exact Or.inr ⟨by rw [hline, hempty], hpads⟩
      · refine Or.inl ?_
        have hends : endsInComment text n = true := by
          by_contra hnot
          rw [commentPads, if_neg hnot] at hpads
          omega
        rw [Line.isCommentOnly, hcomment hempty hends, hall]
        rfl
  · rintro (honly | hfilled)
    · obtain ⟨hany, hall⟩ := Bool.and_eq_true_iff.1 honly
      exact ⟨Or.inl hany, hall⟩
    · exact ⟨Or.inr hfilled.2, by rw [hfilled.cells hl]; rfl⟩

end

end ScriptOutline
