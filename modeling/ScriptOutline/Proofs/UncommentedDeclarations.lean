/-
**The declarations of a text without its comments.**

Headers and lists of parameters are read as if comments were spaces, and so are the lines below.
What follows the parameters on their line is not: at a comment the reader stops and looks for a body
further down.  This matters exactly where something other than comments follows that comment.

Main definitions:

* `isIdle` — a cell that says nothing, a comment or a blank of the code;
* `commentHides` — a comment with something behind it;
* `TailStart`, `ReadsType` — what comes behind blanks, and how a return type is read, in a text and
  in the same text without its comments;
* `afterType` — what is left of a line where a body is looked for;
* `Source.hidesTail` — whether a comment hides the tail of the header on a line.

Main results:

* `listedHeader?_uncommented` — headers and their lists of parameters;
* `readsType`, `bodyFrom?_uncommented`, `tail?_uncommented` — return types, bodies and tails;
* `declaration?_uncommented_iff` — **when a line declares the same without comments**.
-/

import ScriptOutline.Proofs.DeclarationParts
import ScriptOutline.Proofs.Uncommented

set_option relaxedAutoImplicit false
set_option autoImplicit false

namespace ScriptOutline

/-! ### Lines -/

namespace Line

@[simp] theorem isToken_uncommented (c : Cell) : isToken c.uncommented = isToken c := by
  obtain ⟨char, region⟩ := c
  cases region <;> rfl

theorem not_isComment_of_isToken {c : Cell} (h : isToken c = true) : c.isComment = false := by
  cases hc : c.isComment with
  | true => simp [isToken, Cell.isCode_of_isComment hc] at h
  | false => rfl

variable (l : Line)

@[simp] theorem firstCode?_uncommented : l.uncommented.firstCode? = l.firstCode? := by
  simp only [firstCode?, uncommented, List.findIdx?_map, Function.comp_def, isToken_uncommented]

@[simp] theorem codeText_uncommented : l.uncommented.codeText = l.codeText := by
  simp only [codeText, uncommented, List.map_map, Function.comp_def, Cell.visible_uncommented]

@[simp] theorem maskedText_uncommented : l.uncommented.maskedText = l.maskedText := by
  simp only [maskedText, uncommented, List.map_map, Function.comp_def, Cell.masked_uncommented]

end Line

/-! ### Walks -/

theorem Spot.uncommented_of_isComment {x : Spot} (hbreak : x.isBreak = false)
    (h : x.cell.isComment = true) : x.uncommented = ⟨x.position, Cell.space⟩ := by
  rw [uncommented_eq x hbreak, Cell.uncommented_of_isComment h]

/-- A list of parameters is read as if comments were spaces. -/
theorem cellsToClose?_uncommented (lastLine depth : Nat) (spots : List Spot) :
    cellsToClose? lastLine depth (spots.map Spot.uncommented) =
      cellsToClose? lastLine depth spots := by
  induction spots generalizing depth with
  | nil => rfl
  | cons x rest ih =>
      simp only [List.map_cons, cellsToClose?, Spot.uncommented_position, Spot.isBreak_uncommented]
      cases hbreak : x.isBreak with
      | true => simp only [Bool.true_or, if_true, ih]
      | false =>
          cases hcomment : x.cell.isComment with
          | true =>
              have hspace : Cell.space.isComment = false ∧ Cell.space.isCloser = false ∧
                  bracketStep depth Cell.space = depth :=
                ⟨rfl, rfl, rfl⟩
              simp [Spot.uncommented_of_isComment hbreak hcomment, hspace, ih]
          | false =>
              rw [Spot.uncommented_of_not x hcomment]
              simp only [hcomment, ih]

/-- An expression ends where it would if comments were spaces. -/
theorem arrowStop_uncommented (finish : Position) (depth : Nat) (last : Option Position)
    (spots : List Spot) :
    arrowStop finish depth last (spots.map Spot.uncommented) =
      arrowStop finish depth last spots := by
  induction spots generalizing depth last with
  | nil => rfl
  | cons x rest ih =>
      simp only [List.map_cons, arrowStop, Spot.uncommented_position, Spot.isBreak_uncommented, ih]
      cases hbreak : x.isBreak with
      | true => rfl
      | false =>
          cases hcomment : x.cell.isComment with
          | true =>
              have hblank : isBlank Cell.space.char = true := by decide
              simp [Spot.uncommented_of_isComment hbreak hcomment, hblank]
          | false => rw [Spot.uncommented_of_not x hcomment, hcomment]

/-! ### Scanned texts -/

namespace Source

variable (s : Source)

theorem line?_uncommented (n : Nat) :
    s.uncommented.line? n = (s.line? n).map Line.uncommented := by
  simp only [line?, uncommented, List.getElem?_map]

theorem lineCount_uncommented : s.uncommented.lineCount = s.lineCount := by
  simp only [lineCount, uncommented, List.length_map]

@[simp] theorem endPosition_uncommented : s.uncommented.endPosition = s.endPosition := by
  simp only [endPosition, lineCount_uncommented, line?_uncommented, Option.map_map,
    Function.comp_def, Line.uncommented_length]

@[simp] theorem matchingBrace?_uncommented : s.uncommented.matchingBrace? = s.matchingBrace? := rfl

variable {s}

theorem spotsFrom_uncommented (h : s.HasNoBreaks) (p : Position) :
    s.uncommented.spotsFrom p = (s.spotsFrom p).map Spot.uncommented := by
  have hdrop : ∀ l ∈ s.lines.drop p.line, '\n' ∉ l.text :=
    fun l hl => h l (List.mem_of_mem_drop hl)
  simp only [spotsFrom, uncommented, ← List.map_drop]
  cases hlines : s.lines.drop p.line with
  | nil => rfl
  | cons l rest =>
      rw [hlines] at hdrop
      obtain ⟨hl, hrest⟩ := List.forall_mem_cons.1 hdrop
      simp only [List.map_cons, List.map_append, Line.spotsFrom_uncommented hl,
        spotsOfLines_uncommented _ hrest]

end Source

/-! ### Bodies -/

theorem firstBrace?_uncommented (n : Nat) (lines : List Line) :
    firstBrace? n (lines.map Line.uncommented) = firstBrace? n lines := by
  induction lines generalizing n with
  | nil => rfl
  | cons l rest ih =>
      simp only [List.map_cons, firstBrace?, Line.firstCode?_uncommented, ih]
      cases hfirst : l.firstCode? with
      | none => rfl
      | some column =>
          obtain ⟨c, hc, htoken⟩ := Line.isToken_of_firstCode? hfirst
          have hcell : l.uncommented.cells[column]? = some c := by
            rw [Line.uncommented, List.getElem?_map, hc, Option.map_some,
              Cell.uncommented_of_not (Line.not_isComment_of_isToken htoken)]
          simp only [hcell, hc]

@[simp] theorem nextBrace?_uncommented (s : Source) (n : Nat) :
    nextBrace? s.uncommented n = nextBrace? s n := by
  simp only [nextBrace?, Source.uncommented, ← List.map_drop, firstBrace?_uncommented]

@[simp] theorem blockAt_uncommented (s : Source) (opening : Position) :
    blockAt s.uncommented opening = blockAt s opening := rfl

theorem arrowAt_uncommented {s : Source} (h : s.HasNoBreaks) (start : Position) :
    arrowAt s.uncommented start = arrowAt s start := by
  rw [arrowAt, arrowAt, Source.spotsFrom_uncommented h, arrowStop_uncommented,
    Source.endPosition_uncommented]

/-! ### Headers -/

/-- The header on a line and its list of parameters are read as if comments were spaces. -/
theorem listedHeader?_uncommented {s : Source} (h : s.HasNoBreaks) (n : Nat) :
    listedHeader? s.uncommented n = listedHeader? s n := by
  have hcells (p : Position) : parameterCells? s.uncommented p = parameterCells? s p := by
    rw [parameterCells?, Source.spotsFrom_uncommented h, cellsToClose?_uncommented]
    rfl
  simp only [listedHeader?, Source.line?_uncommented, hcells]
  cases s.line? n with
  | none => rfl
  | some line =>
      simp only [Option.map_some, Option.bind_eq_bind, Option.bind_some,
        Line.firstCode?_uncommented, Line.codeText_uncommented, Line.uncommented_length]

/-! ### Blanks and comments -/

/-- Whether a cell says nothing to the reader: a comment, or a blank of the code. -/
def isIdle (c : Cell) : Bool :=
  c.isComment || (c.isCode && isBlank c.char)

/-- Whether a run of cells starts with a comment and has something else behind it. -/
def commentHides : List Cell → Bool
  | [] => false
  | c :: rest => c.isComment && rest.any fun d => !isIdle d

/-- Without comments what says nothing is a blank of the code. -/
theorem dropBlankCode_uncommented (cells : List Cell) :
    dropBlankCode (cells.map Cell.uncommented) =
      (cells.dropWhile isIdle).map Cell.uncommented := by
  have hblank (c : Cell) :
      (c.uncommented.isCode && isBlank c.uncommented.char) = isIdle c := by
    obtain ⟨char, region⟩ := c
    cases region <;> rfl
  rw [dropBlankCode, List.dropWhile_map]
  simp only [Function.comp_def, hblank]

/-- What comes behind blanks, in a text and in the same text without its comments. -/
inductive TailStart : List Cell → List Cell → Prop
  /-- Both go on with the same cell, which is no comment. -/
  | ink (c : Cell) (rest : List Cell) (hc : c.isComment = false) :
    TailStart (c :: rest) (c :: rest)
  /-- There is nothing left but comments. -/
  | comments {cells : List Cell} (hcells : ∀ c ∈ cells.head?, c.isComment = true)
      (hidle : commentHides cells = false) : TailStart cells []
  /-- There is a comment, and something behind it. -/
  | hidden {cells : List Cell} (c : Cell) (rest : List Cell) (hhides : commentHides cells = true)
      (hc : c.isComment = false) : TailStart cells (c :: rest)

theorem tailStart_dropBlankCode (cells : List Cell) :
    TailStart (dropBlankCode cells) (cells.dropWhile isIdle) := by
  induction cells with
  | nil => exact .comments (by simp [dropBlankCode]) rfl
  | cons c rest ih =>
      cases hcomment : c.isComment with
      | true =>
          have hstart : dropBlankCode (c :: rest) = c :: rest := by
            simp [dropBlankCode, Cell.isCode_of_isComment hcomment]
          have hidle : isIdle c = true := by simp [isIdle, hcomment]
          rw [hstart, List.dropWhile_cons_of_pos hidle]
          cases hrest : rest.dropWhile isIdle with
          | nil =>
              have hall := List.dropWhile_eq_nil_iff.1 hrest
              refine .comments (by simp [hcomment]) ?_
              simp only [commentHides, hcomment, Bool.true_and, List.any_eq_false]
              intro d hd
              simp [hall d hd]
          | cons d after =>
              have hd : isIdle d = false := by
                have hnot := List.head?_dropWhile_not isIdle rest
                rw [hrest] at hnot
                simpa using hnot
              refine .hidden d after ?_ ?_
              · have hmem : d ∈ rest := List.dropWhile_subset _ (by rw [hrest]; simp)
                simp only [commentHides, hcomment, Bool.true_and, List.any_eq_true]
                exact ⟨d, hmem, by simp [hd]⟩
              · cases hdcomment : d.isComment with
                | true => simp [isIdle, hdcomment] at hd
                | false => rfl
      | false =>
          cases hblank : (c.isCode && isBlank c.char) with
          | true =>
              have hidle : isIdle c = true := by simp [isIdle, hblank]
              rw [List.dropWhile_cons_of_pos hidle]
              simpa [dropBlankCode, hblank] using ih
          | false =>
              have hidle : ¬isIdle c = true := by simp [isIdle, hblank, hcomment]
              rw [List.dropWhile_cons_of_neg hidle]
              simpa [dropBlankCode, hblank] using TailStart.ink c rest hcomment

/-! ### The return type -/

theorem afterPair?_uncommented {first second : Char} (hfirst : first ≠ ' ') (hsecond : second ≠ ' ')
    (cells : List Cell) :
    afterPair? first second (cells.map Cell.uncommented) =
      (afterPair? first second cells).map (List.map Cell.uncommented) := by
  match cells with
  | [] => rfl
  | [_] => rfl
  | c :: d :: rest =>
      simp only [List.map_cons, afterPair?, Cell.isCodeChar_uncommented hfirst,
        Cell.isCodeChar_uncommented hsecond]
      split <;> rfl

/-- A type ends at a comment, as it does at the space in its place. -/
theorem spanType_uncommented (cells : List Cell) :
    spanType (cells.map Cell.uncommented) =
      ((spanType cells).1, (spanType cells).2.map Cell.uncommented) := by
  induction cells with
  | nil => rfl
  | cons c rest ih =>
      have harrow : (afterPair? '=' '>' (c.uncommented :: rest.map Cell.uncommented)).isSome =
          (afterPair? '=' '>' (c :: rest)).isSome := by
        rw [← List.map_cons, afterPair?_uncommented (by decide) (by decide), Option.isSome_map]
      simp only [List.map_cons, spanType, harrow, ih]
      cases hcomment : c.isComment with
      | true =>
          have hblank : isBlank Cell.space.char = true := by decide
          simp [Cell.uncommented_of_isComment hcomment, Cell.isCode_of_isComment hcomment, hblank]
      | false =>
          rw [Cell.uncommented_of_not hcomment]
          split
          · simp [Cell.uncommented_of_not hcomment]
          · rfl

/-- No type starts with a comment. -/
theorem spanType_of_comment {cells : List Cell} (h : ∀ c ∈ cells.head?, c.isComment = true) :
    spanType cells = ([], cells) := by
  cases cells with
  | nil => rfl
  | cons c rest =>
      have hcode := Cell.isCode_of_isComment (h c rfl)
      simp [spanType, hcode]

theorem afterPair?_of_comment {first second : Char} {cells : List Cell}
    (h : ∀ c ∈ cells.head?, c.isComment = true) : afterPair? first second cells = none := by
  match cells with
  | [] => rfl
  | [_] => rfl
  | c :: d :: rest =>
      have hcode := Cell.isCode_of_isComment (h c rfl)
      simp [afterPair?, Cell.isCodeChar, hcode]

theorem dropBlankCode_of_comment {cells : List Cell} (h : ∀ c ∈ cells.head?, c.isComment = true) :
    dropBlankCode cells = cells := by
  cases cells with
  | nil => rfl
  | cons c rest =>
      have hcode := Cell.isCode_of_isComment (h c rfl)
      simp [dropBlankCode, hcode]

theorem head_of_commentHides {cells : List Cell} (h : commentHides cells = true) :
    ∀ c ∈ cells.head?, c.isComment = true := by
  cases cells with
  | nil => simp
  | cons c rest =>
      simp only [commentHides, Bool.and_eq_true] at h
      simp [h.1]

/-- What is left of a run of cells where a body is looked for: behind blanks and a return type. -/
def afterType (cells : List Cell) : List Cell :=
  match afterPair? '-' '>' (dropBlankCode cells) with
  | none => dropBlankCode cells
  | some rest => dropBlankCode (spanType (dropBlankCode rest)).2

/-- A body is looked for in what is left. -/
theorem eq_afterType {cells rest : List Cell} {type : Option String}
    (h : readReturnType? (dropBlankCode cells) = some (type, rest)) : rest = afterType cells := by
  unfold readReturnType? at h
  unfold afterType
  cases hpair : afterPair? '-' '>' (dropBlankCode cells) with
  | none =>
      simp only [hpair, Option.some.injEq, Prod.mk.injEq] at h ⊢
      exact h.2.symm
  | some inner =>
      simp only [hpair] at h ⊢
      split at h
      · simp at h
      · simp only [Option.some.injEq, Prod.mk.injEq] at h
        exact h.2.symm

/-- How a return type is read in a text, and in the same text without its comments. -/
inductive ReadsType (cells : List Cell) : Prop
  /-- It is the same, or missing in both. -/
  | same {type : Option String} {rest rest' : List Cell}
      (hread : readReturnType? (dropBlankCode cells) = some (type, rest))
      (hread' : readReturnType? (dropBlankCode (cells.map Cell.uncommented)) =
        some (type, rest'.map Cell.uncommented))
      (hstart : TailStart rest rest')
  /-- There is a mark without a type, unless the type is hidden. -/
  | missing (hread : readReturnType? (dropBlankCode cells) = none)
      (hread' : commentHides (afterType cells) = false →
        readReturnType? (dropBlankCode (cells.map Cell.uncommented)) = none)
  /-- The mark itself is hidden. -/
  | hidden {rest : List Cell} (hread : readReturnType? (dropBlankCode cells) = some (none, rest))
      (hhides : commentHides rest = true)
      (hread' : ∀ after,
        readReturnType? (dropBlankCode (cells.map Cell.uncommented)) ≠ some (none, after))

theorem readReturnType?_none {cells : List Cell} (h : afterPair? '-' '>' cells = none) :
    readReturnType? cells = some (none, cells) := by
  simp [readReturnType?, h]

theorem readReturnType?_some {cells inner : List Cell}
    (h : afterPair? '-' '>' cells = some inner) :
    readReturnType? cells =
      if (spanType (dropBlankCode inner)).1.isEmpty then none
      else some (some (String.ofList (spanType (dropBlankCode inner)).1),
        dropBlankCode (spanType (dropBlankCode inner)).2) := by
  simp [readReturnType?, h]

/-- Behind the mark of a return type its text is the same, or missing, or hidden. -/
theorem readsType_of_mark {cells inner : List Cell}
    (hpair : afterPair? '-' '>' (dropBlankCode cells) = some inner)
    (hcells : dropBlankCode (cells.map Cell.uncommented) =
      (dropBlankCode cells).map Cell.uncommented) : ReadsType cells := by
  have hpair' : afterPair? '-' '>' (dropBlankCode (cells.map Cell.uncommented)) =
      some (inner.map Cell.uncommented) := by
    rw [hcells, afterPair?_uncommented (by decide) (by decide), hpair]
    rfl
  have hread := readReturnType?_some hpair
  have hread' := readReturnType?_some hpair'
  rw [dropBlankCode_uncommented inner, spanType_uncommented] at hread'
  have hafter : afterType cells = dropBlankCode (spanType (dropBlankCode inner)).2 := by
    simp only [afterType, hpair]
  have hstart := tailStart_dropBlankCode inner
  generalize dropBlankCode inner = start at *
  generalize inner.dropWhile isIdle = start' at *
  cases hstart with
  | ink c rest hc =>
      by_cases hempty : (spanType (c :: rest)).1.isEmpty = true
      · rw [if_pos hempty] at hread hread'
        exact .missing hread fun _ => hread'
      · rw [if_neg hempty] at hread hread'
        simp only [dropBlankCode_uncommented (spanType (c :: rest)).2] at hread'
        exact .same hread hread' (tailStart_dropBlankCode _)
  | comments hcomments hidle =>
      rw [spanType_of_comment hcomments] at hread
      exact .missing hread fun _ => hread'
  | hidden c rest hhides hc =>
      have hcomments := head_of_commentHides hhides
      rw [spanType_of_comment hcomments] at hread hafter
      refine .missing hread ?_
      intro hnot
      rw [hafter, dropBlankCode_of_comment hcomments, hhides] at hnot
      exact Bool.noConfusion hnot

/-- A return type is read the same, or missing, or it is hidden. -/
theorem readsType (cells : List Cell) : ReadsType cells := by
  have hstart := tailStart_dropBlankCode cells
  have hdrop := dropBlankCode_uncommented cells
  generalize hcells : dropBlankCode cells = start at hstart
  generalize cells.dropWhile isIdle = start' at hstart hdrop
  cases hstart with
  | ink c rest hc =>
      cases hpair : afterPair? '-' '>' (c :: rest) with
      | none =>
          have hpair' : afterPair? '-' '>' ((c :: rest).map Cell.uncommented) = none := by
            rw [afterPair?_uncommented (by decide) (by decide), hpair]
            rfl
          have hread : readReturnType? (dropBlankCode cells) = some (none, c :: rest) := by
            rw [hcells, readReturnType?_none hpair]
          refine .same hread ?_ (.ink c rest hc)
          rw [hdrop, readReturnType?_none hpair']
      | some inner =>
          rw [← hcells] at hpair hdrop
          exact readsType_of_mark hpair hdrop
  | comments hcomments hidle =>
      have hread : readReturnType? (dropBlankCode cells) = some (none, start) := by
        rw [hcells, readReturnType?_none (afterPair?_of_comment hcomments)]
      refine .same hread ?_ (.comments hcomments hidle)
      rw [hdrop]
      rfl
  | hidden c rest hhides hc =>
      have hread : readReturnType? (dropBlankCode cells) = some (none, start) := by
        rw [hcells, readReturnType?_none (afterPair?_of_comment (head_of_commentHides hhides))]
      cases hpair : afterPair? '-' '>' ((c :: rest).map Cell.uncommented) with
      | none =>
          refine .same hread ?_ (.hidden c rest hhides hc)
          rw [hdrop, readReturnType?_none hpair]
      | some inner =>
          refine .hidden hread hhides ?_
          intro after
          rw [hdrop, readReturnType?_some hpair]
          split <;> simp

/-! ### The tail -/

section

variable {s : Source} {line : Line} {n : Nat}

/-- Behind comments a body is looked for on the lines below. -/
theorem bodyFrom?_of_comment {cells : List Cell} (h : ∀ c ∈ cells.head?, c.isComment = true) :
    bodyFrom? s line n cells =
      (nextBrace? s n).map fun opening => (blockAt s opening, opening.line) := by
  cases cells with
  | nil => rfl
  | cons c rest => simp [bodyFrom?, h c rfl]

/-- What is no comment starts a body on its own line, or none. -/
theorem line_of_bodyFrom? {c : Cell} {rest : List Cell} (hc : c.isComment = false) {body : Body}
    {headerLine : Nat} (h : bodyFrom? s line n (c :: rest) = some (body, headerLine)) :
    headerLine = n := by
  simp only [bodyFrom?, hc, Bool.false_eq_true, if_false] at h
  split at h
  · simp only [Option.some.injEq, Prod.mk.injEq] at h
    exact h.2.symm
  · split at h
    · simp only [Option.some.injEq, Prod.mk.injEq] at h
      exact h.2.symm
    · simp at h

/-- A body is found the same without comments, unless a comment hides it. -/
theorem bodyFrom?_uncommented (hs : s.HasNoBreaks) {cells cells' : List Cell}
    (hstart : TailStart cells cells') (hhides : commentHides cells = false) :
    bodyFrom? s.uncommented line.uncommented n (cells'.map Cell.uncommented) =
      bodyFrom? s line n cells := by
  cases hstart with
  | ink c rest hc =>
      have harrow : (afterPair? '=' '>' ((c :: rest).map Cell.uncommented)).isSome =
          (afterPair? '=' '>' (c :: rest)).isSome := by
        rw [afterPair?_uncommented (by decide) (by decide), Option.isSome_map]
      have hbrace : '{' ≠ ' ' := by decide
      simp only [List.map_cons] at harrow
      simp only [List.map_cons, bodyFrom?, harrow, Cell.isComment_uncommented, hc,
        Cell.isCodeChar_uncommented hbrace, arrowAt_uncommented hs,
        blockAt_uncommented, Line.uncommented_length, List.length_cons, List.length_map,
        Bool.false_eq_true, if_false]
  | comments hcomments hidle =>
      rw [bodyFrom?_of_comment hcomments, List.map_nil, bodyFrom?_of_comment (by simp)]
      simp only [nextBrace?_uncommented, blockAt_uncommented]
  | hidden c rest hhides' hc =>
      rw [hhides'] at hhides
      exact Bool.noConfusion hhides

/-- Where a comment hides what follows, a body is found the same only if there is none. -/
theorem bodyFrom?_eq_none_of_hidden {cells cells' : List Cell} (hstart : TailStart cells cells')
    (hhides : commentHides cells = true)
    (h : bodyFrom? s.uncommented line.uncommented n (cells'.map Cell.uncommented) =
      bodyFrom? s line n cells) : bodyFrom? s line n cells = none := by
  cases hbody : bodyFrom? s line n cells with
  | none => rfl
  | some found =>
      obtain ⟨body, headerLine⟩ := found
      rw [hbody] at h
      cases hstart with
      | ink c rest hc =>
          have hcomment := head_of_commentHides hhides c rfl
          rw [hc] at hcomment
          exact Bool.noConfusion hcomment
      | comments hcomments hidle =>
          rw [hhides] at hidle
          exact Bool.noConfusion hidle
      | hidden c rest hhides' hc =>
          have hline := line_of_bodyFrom? (Cell.isComment_uncommented c) h
          rw [bodyFrom?_of_comment (head_of_commentHides hhides), Option.map_eq_some_iff] at hbody
          obtain ⟨opening, hopening, heq⟩ := hbody
          have hbelow := (nextBrace?_spec hopening).1
          rw [Prod.mk.injEq] at heq
          omega

end

/-- The tail behind a closing parenthesis, from what its line has behind it. -/
theorem tail?_eq {s : Source} {closing : Position} {line : Line}
    (hline : s.line? closing.line = some line) :
    tail? s closing = (readReturnType? (dropBlankCode (line.cells.drop (closing.column + 1)))).bind
      fun found => (bodyFrom? s line closing.line found.2).map fun body =>
        ⟨found.1, body.1, body.2⟩ := by
  simp only [tail?, hline, Option.bind_eq_bind, Option.bind_some]
  congr 1
  funext found
  obtain ⟨type, cells⟩ := found
  simp only
  cases bodyFrom? s line closing.line cells <;> rfl

/-- The tail that is read there without comments. -/
theorem tail?_uncommented_eq {s : Source} {closing : Position} {line : Line}
    (hline : s.line? closing.line = some line) :
    tail? s.uncommented closing =
      (readReturnType? (dropBlankCode
        ((line.cells.drop (closing.column + 1)).map Cell.uncommented))).bind
      fun found => (bodyFrom? s.uncommented line.uncommented closing.line found.2).map fun body =>
        ⟨found.1, body.1, body.2⟩ := by
  have hline' : s.uncommented.line? closing.line = some line.uncommented := by
    rw [Source.line?_uncommented, hline]
    rfl
  rw [tail?_eq hline', List.map_drop]
  rfl

/-- Whether a comment hides what follows a closing parenthesis on its line. -/
def Source.hidesBehind (s : Source) (closing : Position) : Bool :=
  (s.line? closing.line).any fun l => commentHides (afterType (l.cells.drop (closing.column + 1)))

/-- The tail is the same without comments, unless a comment hides it. -/
theorem tail?_uncommented {s : Source} (hs : s.HasNoBreaks) {closing : Position}
    (h : s.hidesBehind closing = false) : tail? s.uncommented closing = tail? s closing := by
  cases hline : s.line? closing.line with
  | none => simp [tail?, Source.line?_uncommented, hline]
  | some line =>
      simp only [Source.hidesBehind, hline, Option.any_some] at h
      rw [tail?_eq hline, tail?_uncommented_eq hline]
      cases readsType (line.cells.drop (closing.column + 1)) with
      | same hread hread' hstart =>
          rw [← eq_afterType hread] at h
          rw [hread, hread', Option.bind_some, Option.bind_some]
          exact congrArg _ (bodyFrom?_uncommented hs hstart h)
      | missing hread hread' => rw [hread, hread' h, Option.bind_none, Option.bind_none]
      | hidden hread hhides hread' =>
          rw [← eq_afterType hread, hhides] at h
          exact Bool.noConfusion h

/-- Where a comment hides what follows, the tail is the same only if there is none. -/
theorem tail?_eq_none_of_hidden {s : Source} {closing : Position}
    (h : s.hidesBehind closing = true) (heq : tail? s.uncommented closing = tail? s closing) :
    tail? s closing = none := by
  cases hline : s.line? closing.line with
  | none => simp [tail?, hline]
  | some line =>
      simp only [Source.hidesBehind, hline, Option.any_some] at h
      rw [tail?_eq hline, tail?_uncommented_eq hline] at heq
      rw [tail?_eq hline]
      cases readsType (line.cells.drop (closing.column + 1)) with
      | same hread hread' hstart =>
          rw [← eq_afterType hread] at h
          rw [hread, hread', Option.bind_some, Option.bind_some] at heq
          rw [hread, Option.bind_some, Option.map_eq_none_iff]
          refine bodyFrom?_eq_none_of_hidden hstart h (Option.map_injective ?_ heq)
          rintro ⟨body, headerLine⟩ ⟨body', headerLine'⟩ hsame
          simpa using hsame
      | missing hread hread' => rw [hread, Option.bind_none]
      | hidden hread hhides hread' =>
          rw [hread, Option.bind_some] at heq ⊢
          rw [Option.map_eq_none_iff, Option.eq_none_iff_forall_ne_some]
          intro body hbody
          -- without comments there would be a return type, or no tail at all
          rw [hbody, Option.map_some, Option.bind_eq_some_iff] at heq
          obtain ⟨⟨type, after⟩, htype, htail⟩ := heq
          obtain ⟨_, -, hfields⟩ := Option.map_eq_some_iff.1 htail
          have hnone : type = none := congrArg Tail.returnType hfields
          rw [hnone] at htype
          exact hread' after htype

/-- Whether a comment hides the tail of the header on a line. -/
def Source.hidesTail (s : Source) (n : Nat) : Bool :=
  (listedHeader? s n).any fun h => s.hidesBehind h.closing

theorem ListedHeader.declare_injective (h : ListedHeader) : Function.Injective h.declare := by
  rintro ⟨type, body, headerLine⟩ ⟨type', body', headerLine'⟩ heq
  simpa [declare] using heq

/-- Without comments a line declares the same, unless a comment hides a tail that there is. -/
theorem declaration?_uncommented_iff {s : Source} (hs : s.HasNoBreaks) (n : Nat) :
    declaration? s.uncommented n = declaration? s n ↔
      (s.hidesTail n = true → declaration? s n = none ∧ declaration? s.uncommented n = none) := by
  rw [declaration?_eq, declaration?_eq, listedHeader?_uncommented hs, Source.hidesTail]
  cases listedHeader? s n with
  | none => simp
  | some h =>
      simp only [Option.bind_some, Option.any_some, Option.map_eq_none_iff]
      constructor
      · intro heq hhides
        have htail := Option.map_injective h.declare_injective heq
        have hnone := tail?_eq_none_of_hidden hhides htail
        exact ⟨hnone, htail.trans hnone⟩
      · intro hnone
        cases hhides : s.hidesBehind h.closing with
        | false => rw [tail?_uncommented hs hhides]
        | true => rw [(hnone hhides).1, (hnone hhides).2]

end ScriptOutline
