/-
**The declarations of a text with the insides of its literals overwritten.**

The reader of headers sees literals, but what it reads is plain text, and so it stops before it
comes to what is inside of one.  Everything behind a header is read off the code.  All that a
declaration takes from the insides of literals is its list of parameters and the end of an
expression.

Main definitions:

* `Header.followedBy` — a header with more behind it;
* `ListedHeader.Redacts`, `Declaration.Redacts` — what is read in a text, and in the redacted text.

Main results:

* `Header.read?_append` — what stands behind its parenthesis is no part of a header;
* `listedHeader?_redacted`, `tail?_redacted` — headers, lists of parameters and tails;
* `declaration?_redacted` — **what a line declares in a redacted text**.
-/

import ScriptOutline.Proofs.Redaction
import ScriptOutline.Proofs.UncommentedDeclarations
import ScriptOutline.Proofs.UpperPart

set_option relaxedAutoImplicit false
set_option autoImplicit false

namespace ScriptOutline

/-! ### Walks -/

/-- A list of parameters closes where it does redacted, and has the same cells, redacted. -/
theorem cellsToClose?_redacted (lastLine depth : Nat) (spots : List Spot) :
    cellsToClose? lastLine depth (spots.map Spot.redacted) =
      (cellsToClose? lastLine depth spots).map fun (cells, p) => (cells.map Cell.redacted, p) := by
  induction spots generalizing depth with
  | nil => rfl
  | cons x rest ih =>
      have hspace : Cell.space.redacted = Cell.space := rfl
      simp only [List.map_cons, cellsToClose?, Spot.redacted_position, Spot.isBreak_redacted, ih]
      cases hbreak : x.isBreak with
      | true =>
          simp only [Bool.true_or, if_true]
          split
          · rfl
          · simp only [Option.map_map, Function.comp_def, List.map_cons, hspace]
      | false =>
          rw [Spot.redacted_of_not_isBreak x hbreak]
          simp only [Cell.isComment_redacted, Cell.isCloser_redacted, bracketStep_redacted]
          split
          · rfl
          · split
            · simp only [Option.map_map, Function.comp_def, List.map_cons, hspace]
            · split
              · next hcloser =>
                  simp only [Bool.and_eq_true, Cell.isCloser] at hcloser
                  -- a bracket that closes is code, and is not overwritten
                  rw [Cell.redacted_of_isCode hcloser.2.1]
                  split <;> rfl
              · simp only [Option.map_map, Function.comp_def, List.map_cons]

theorem firstBrace?_redacted (n : Nat) (lines : List Line) :
    firstBrace? n (lines.map Line.redacted) = firstBrace? n lines := by
  induction lines generalizing n with
  | nil => rfl
  | cons l rest ih =>
      simp only [List.map_cons, firstBrace?, Line.firstCode?_redacted, ih]
      cases hfirst : l.firstCode? with
      | none => rfl
      | some column =>
          obtain ⟨c, hc, htoken⟩ := Line.isToken_of_firstCode? hfirst
          simp only [Line.isToken, Bool.and_eq_true] at htoken
          have hcell : l.redacted.cells[column]? = some c := by
            rw [Line.redacted, List.getElem?_map, hc, Option.map_some,
              Cell.redacted_of_isCode htoken.1]
          simp only [hcell, hc]

@[simp] theorem nextBrace?_redacted (s : Source) (n : Nat) :
    nextBrace? s.redacted n = nextBrace? s n := by
  simp only [nextBrace?, Source.redacted, ← List.map_drop, firstBrace?_redacted]

/-! ### The tail -/

theorem dropBlankCode_redacted (cells : List Cell) :
    dropBlankCode (cells.map Cell.redacted) = (dropBlankCode cells).map Cell.redacted := by
  have hblank (c : Cell) :
      (c.redacted.isCode && isBlank c.redacted.char) = (c.isCode && isBlank c.char) := by
    cases h : c.isCode with
    | true => rw [Cell.redacted_of_isCode h, h]
    | false => simp only [Cell.isCode_redacted, h, Bool.false_and]
  simp only [dropBlankCode, List.dropWhile_map, Function.comp_def, hblank]

theorem afterPair?_redacted (first second : Char) (cells : List Cell) :
    afterPair? first second (cells.map Cell.redacted) =
      (afterPair? first second cells).map (List.map Cell.redacted) := by
  match cells with
  | [] => rfl
  | [_] => rfl
  | c :: d :: rest =>
      simp only [List.map_cons, afterPair?, Cell.isCodeChar_redacted]
      split <;> rfl

theorem isSome_afterPair?_redacted (first second : Char) (c : Cell) (rest : List Cell) :
    (afterPair? first second (c.redacted :: rest.map Cell.redacted)).isSome =
      (afterPair? first second (c :: rest)).isSome := by
  rw [← List.map_cons, afterPair?_redacted, Option.isSome_map]

/-- A type ends at a literal, and so it is the same redacted. -/
theorem spanType_redacted (cells : List Cell) :
    spanType (cells.map Cell.redacted) =
      ((spanType cells).1, (spanType cells).2.map Cell.redacted) := by
  induction cells with
  | nil => rfl
  | cons c rest ih =>
      simp only [List.map_cons, spanType, isSome_afterPair?_redacted, ih, Cell.isCode_redacted]
      cases hcode : c.isCode with
      | true =>
          rw [Cell.redacted_of_isCode hcode]
          split
          · simp [Cell.redacted_of_isCode hcode]
          · rfl
      | false => simp

theorem readReturnType?_redacted (cells : List Cell) :
    readReturnType? (cells.map Cell.redacted) =
      (readReturnType? cells).map fun (type, rest) => (type, rest.map Cell.redacted) := by
  unfold readReturnType?
  rw [afterPair?_redacted]
  cases afterPair? '-' '>' cells with
  | none => rfl
  | some inner =>
      simp only [Option.map_some, dropBlankCode_redacted, spanType_redacted]
      split <;> rfl

/-- The body that starts with a run of cells starts at the same place redacted. -/
theorem bodyFrom?_redacted (s : Source) (line : Line) (n : Nat) (cells : List Cell) :
    bodyFrom? s.redacted line.redacted n (cells.map Cell.redacted) =
      (bodyFrom? s line n cells).map fun (b, m) => (b.reread s.redacted, m) := by
  rw [← bodyFrom?_reread (nextBrace?_redacted s n)]
  cases cells with
  | nil => rfl
  | cons c rest =>
      simp only [List.map_cons, bodyFrom?, isSome_afterPair?_redacted, Cell.isComment_redacted,
        Cell.isCodeChar_redacted, Line.redacted_length, List.length_cons, List.length_map]

/-- The tail in another text that has a body at the same place. -/
def Tail.reread (t : Source) (tail : Tail) : Tail :=
  { tail with body := tail.body.reread t }

/-- The tail behind a closing parenthesis is the same redacted, but for the end of an expression. -/
theorem tail?_redacted (s : Source) (closing : Position) :
    tail? s.redacted closing = (tail? s closing).map (Tail.reread s.redacted) := by
  cases hline : s.line? closing.line with
  | none => simp [tail?, Source.line?_redacted, hline]
  | some line =>
      have hline' : s.redacted.line? closing.line = some line.redacted := by
        rw [Source.line?_redacted, hline]
        rfl
      have hcells : line.redacted.cells.drop (closing.column + 1) =
          (line.cells.drop (closing.column + 1)).map Cell.redacted :=
        List.map_drop.symm
      rw [tail?_eq hline, tail?_eq hline', hcells, dropBlankCode_redacted, readReturnType?_redacted]
      cases readReturnType? (dropBlankCode (line.cells.drop (closing.column + 1))) with
      | none => rfl
      | some found =>
          simp only [Option.map_some, Option.bind_some, bodyFrom?_redacted, Option.map_map]
          rfl

/-! ### Headers -/

section

variable {c : Char} {word : List Char}

/-- What is dropped stops at a character that stays. -/
theorem dropWhile_append_cons {p : Char → Bool} (hc : p c = false) (before rest : List Char) :
    (before ++ c :: rest).dropWhile p = before.dropWhile p ++ c :: rest := by
  rw [List.dropWhile_append]
  split
  · next hempty => rw [List.isEmpty_iff.1 hempty, List.dropWhile_cons_of_neg (by simp [hc])]; rfl
  · rfl

theorem takeWhile_append_cons {p : Char → Bool} (hc : p c = false) (before rest : List Char) :
    (before ++ c :: rest).takeWhile p = before.takeWhile p := by
  rw [List.takeWhile_append, List.takeWhile_cons_of_neg (by simp [hc]), List.append_nil]
  split
  · next hlength => exact ((List.takeWhile_prefix p).eq_of_length hlength).symm
  · rfl

theorem identifier?_append (hc : isWordChar c = false) (before rest : List Char) :
    identifier? (before ++ c :: rest) =
      (identifier? before).map fun (name, after) => (name, after ++ c :: rest) := by
  cases before with
  | nil => simp [identifier?, isIdentifierStart, hc]
  | cons d before =>
      simp only [List.cons_append, identifier?, takeWhile_append_cons hc, dropWhile_append_cons hc]
      split <;> rfl

theorem trimStart_append (hc : isBlank c = false) (before rest : List Char) :
    trimStart (before ++ c :: rest) = trimStart before ++ c :: rest :=
  dropWhile_append_cons hc before rest

theorem afterBlanks?_append (hc : isBlank c = false) (before rest : List Char) :
    afterBlanks? (before ++ c :: rest) = (afterBlanks? before).map (· ++ c :: rest) := by
  cases before with
  | nil => simp [afterBlanks?, hc]
  | cons d before =>
      simp only [List.cons_append, afterBlanks?, trimStart_append hc]
      split <;> rfl

theorem afterWord?_append (hc : ∀ letter ∈ word, foldsTo letter c = false)
    (before rest : List Char) :
    afterWord? word (before ++ c :: rest) = (afterWord? word before).map (· ++ c :: rest) := by
  induction word generalizing before with
  | nil => rfl
  | cons letter word ih =>
      obtain ⟨hletter, hword⟩ := List.forall_mem_cons.1 hc
      cases before with
      | nil => simp [afterWord?, hletter]
      | cons d before =>
          simp only [List.cons_append, afterWord?, ih hword]
          split <;> rfl

end

namespace Header

/-- A header with more behind it. -/
def followedBy (rest : List Char) (h : Header) : Header :=
  { h with rest := h.rest ++ rest }

theorem named?_append (isStatic : Bool) (before rest : List Char) :
    named? isStatic (before ++ '(' :: rest) =
      (named? isStatic (before ++ ['('])).map (followedBy rest) := by
  have hword : isWordChar '(' = false := by decide
  have hblank : isBlank '(' = false := by decide
  simp only [named?, identifier?_append hword]
  cases identifier? before with
  | none => rfl
  | some found =>
      simp only [Option.map_some, trimStart_append hblank]
      cases trimStart found.2 with
      | nil => rfl
      | cons d after =>
          simp only [List.cons_append]
          split
          · next heq =>
              cases heq
              simp [followedBy]
          · next hne =>
              split
              · next heq =>
                  cases heq
                  exact absurd rfl (hne _)
              · rfl

/-- A parenthesis is no letter of a word. -/
theorem foldsTo_parenthesis {letter : Char} (h : letter ≠ '(') : foldsTo letter '(' = false := by
  have hlower : '('.toLower = '(' := by decide
  simp [foldsTo, hlower, h.symm]

theorem static?_append (before rest : List Char) :
    static? (before ++ '(' :: rest) = (static? (before ++ ['('])).map (followedBy rest) := by
  have hnot : '(' ∉ "static".toList := by decide
  have hstatic : ∀ letter ∈ "static".toList, foldsTo letter '(' = false :=
    fun letter hletter => foldsTo_parenthesis fun heq => hnot (heq ▸ hletter)
  have hblank : isBlank '(' = false := by decide
  simp only [static?, afterWord?_append hstatic]
  cases afterWord? "static".toList before with
  | none => rfl
  | some found =>
      simp only [Option.map_some, Option.bind_some, afterBlanks?_append hblank]
      cases afterBlanks? found with
      | none => rfl
      | some inner =>
          simp only [Option.map_some, Option.bind_some, named?_append true inner rest]

/-- What stands behind its parenthesis is no part of a header. -/
theorem read?_append (before rest : List Char) :
    read? (before ++ '(' :: rest) = (read? (before ++ ['('])).map (followedBy rest) := by
  simp only [read?, static?_append before rest, named?_append false before rest,
    Option.orElse_eq_orElse, Option.orElse_eq_or, Option.map_or]

/-- A header with something else behind its parenthesis. -/
theorem read?_of_append {before rest : List Char} {h : Header}
    (hr : read? (before ++ '(' :: h.rest) = some h) :
    read? (before ++ '(' :: rest) = some { h with rest } := by
  rw [read?_append] at hr
  obtain ⟨inner, hinner, hsame⟩ := Option.map_eq_some_iff.1 hr
  have hnil : inner.rest = [] := by
    have hrest : inner.rest ++ h.rest = h.rest := congrArg Header.rest hsame
    simpa using hrest
  rw [read?_append, hinner, ← hsame]
  simp [followedBy, hnil]

end Header

/-- Text before a character, and in front of it no literal. -/
theorem exists_cells_of_plain {c : Cell} {cells : List Cell}
    (h : (c :: cells).IsChain (Opens isQuoteMark)) (hc : c.isLiteral = false)
    {before rest : List Char} {char : Char} (hplain : Plain before)
    (hquote : isQuoteMark char = false) (htext : cells.map Cell.visible = before ++ char :: rest) :
    ∃ xs d ys, cells = xs ++ d :: ys ∧ (∀ e ∈ xs, e.isLiteral = false) ∧ d.isLiteral = false ∧
      xs.map Cell.visible = before ∧ d.visible = char ∧ ys.map Cell.visible = rest := by
  obtain ⟨xs, tail, rfl, hxs, htail⟩ := List.map_eq_append_iff.1 htext
  obtain ⟨d, ys, rfl, hd, hys⟩ := List.map_eq_cons_iff.1 htail
  have hchain : (c :: (xs ++ [d])).IsChain (Opens isQuoteMark) := by
    have hsplit : c :: (xs ++ d :: ys) = c :: (xs ++ [d]) ++ ys := by simp
    rw [hsplit] at h
    exact (List.isChain_append.1 h).1
  have hall : ∀ e ∈ xs ++ [d], e.isLiteral = false := by
    refine not_literal_of_plain hchain hc ?_
    rw [List.map_append, hxs, List.map_singleton, hd]
    exact hplain.append (by simpa [Plain] using hquote)
  exact ⟨xs, d, ys, rfl, fun e he => hall e (List.mem_append_left _ he), hall d (by simp), hxs, hd,
    hys⟩

/-- Of two runs of cells that are the same redacted, both start with the same header or none. -/
theorem read?_of_redacted_eq {c : Cell} {xs ys : List Cell}
    (hx : (c :: xs).IsChain (Opens isQuoteMark)) (hc : c.isLiteral = false)
    (heq : ys.map Cell.redacted = xs.map Cell.redacted) {h : Header}
    (hr : Header.read? (xs.map Cell.visible) = some h) :
    ∃ rest, Header.read? (ys.map Cell.visible) = some { h with rest } ∧
      rest.length = h.rest.length := by
  -- up to its parenthesis a header is plain, so that no literal starts in front of it
  obtain ⟨before, htext, hplain⟩ := Header.read?_spec hr
  obtain ⟨xs₁, d, xs₂, rfl, hxs₁, hd, hbefore, hchar, hrest⟩ :=
    exists_cells_of_plain hx hc hplain (by decide) htext
  rw [List.map_append, List.map_cons, map_redacted_of_not_literal hxs₁,
    Cell.redacted_of_not_literal hd] at heq
  obtain ⟨ys₁, tail, rfl, hys₁, htail⟩ := List.map_eq_append_iff.1 heq
  obtain ⟨e, ys₂, rfl, he, hys₂⟩ := List.map_eq_cons_iff.1 htail
  obtain rfl := eq_of_map_redacted hys₁ hxs₁
  have hed : e = d := by
    rw [← he, Cell.redacted_of_not_literal]
    rw [← Cell.isLiteral_redacted, he, hd]
  refine ⟨ys₂.map Cell.visible, ?_, ?_⟩
  · rw [htext] at hr
    rw [List.map_append, List.map_cons, hbefore, hed, hchar]
    exact Header.read?_of_append hr
  · rw [← hrest, List.length_map, List.length_map]
    simpa using congrArg List.length hys₂

/-- What is read of a header and its list of parameters in a text, and in the redacted text. -/
structure ListedHeader.Redacts (h h' : ListedHeader) : Prop where
  name : h'.header.name = h.header.name
  isStatic : h'.header.isStatic = h.header.isStatic
  start : h'.start = h.start
  cells : h'.cells = h.cells.map Cell.redacted
  closing : h'.closing = h.closing

theorem parameterCells?_redacted {s : Source} (hs : s.HasNoBreaks) (opening : Position) :
    parameterCells? s.redacted opening =
      (parameterCells? s opening).map fun (cells, p) => (cells.map Cell.redacted, p) := by
  rw [parameterCells?, Source.spotsFrom_redacted hs, cellsToClose?_redacted]
  rfl

/-- The first code of a line and what follows it. -/
theorem Line.isChain_drop_firstCode? {l : Line} (h : l.OpensLiterals) {first : Nat}
    (hfirst : l.firstCode? = some first) :
    (Cell.space :: l.cells.drop first).IsChain (Opens isQuoteMark) := by
  obtain ⟨c, hc, htoken⟩ := isToken_of_firstCode? hfirst
  obtain ⟨hlt, hget⟩ := List.getElem?_eq_some_iff.1 hc
  simp only [isToken, Bool.and_eq_true] at htoken
  have hliteral := Cell.not_literal_of_isCode htoken.1
  rw [List.drop_eq_getElem_cons hlt, hget, List.isChain_cons_cons]
  refine ⟨fun h => absurd h (by simp [hliteral]), ?_⟩
  have hsplit : l.cells = l.cells.take first ++ c :: l.cells.drop (first + 1) := by
    rw [← hget, ← List.drop_eq_getElem_cons hlt, List.take_append_drop]
  rw [OpensLiterals, hsplit] at h
  exact isChain_opens_of_append (e := c) h hliteral

/-- The header on a line is the same redacted. -/
theorem read?_redacted {l : Line} (h : l.OpensLiterals) {first : Nat}
    (hfirst : l.firstCode? = some first) :
    Option.Rel (fun x y => y = { x with rest := y.rest } ∧ y.rest.length = x.rest.length)
      (Header.read? (l.codeText.drop first)) (Header.read? (l.redacted.codeText.drop first)) := by
  have hchain := l.isChain_drop_firstCode? h hfirst
  have hspace : Cell.space.isLiteral = false := rfl
  have htext : l.codeText.drop first = (l.cells.drop first).map Cell.visible := List.map_drop.symm
  have htext' : l.redacted.codeText.drop first =
      ((l.cells.drop first).map Cell.redacted).map Cell.visible := by
    rw [Line.codeText, Line.redacted, ← List.map_drop, ← List.map_drop]
  -- the redacted line is a run of cells like the line itself, so that one lemma gives both directions
  have hidem : ((l.cells.drop first).map Cell.redacted).map Cell.redacted =
      (l.cells.drop first).map Cell.redacted := by
    simp only [List.map_map, Function.comp_def, Cell.redacted_redacted]
  rw [htext, htext']
  cases hx : Header.read? ((l.cells.drop first).map Cell.visible) with
  | some x =>
      obtain ⟨rest, hy, hlength⟩ := read?_of_redacted_eq hchain hspace hidem hx
      rw [hy]
      exact .some ⟨rfl, hlength⟩
  | none =>
      cases hy : Header.read? (((l.cells.drop first).map Cell.redacted).map Cell.visible) with
      | none => exact .none
      | some y =>
          obtain ⟨rest, hx', -⟩ := read?_of_redacted_eq (isChain_opens_redacted hchain) hspace
            hidem.symm hy
          rw [hx] at hx'
          exact absurd hx' (by simp)

/-- The header on a line and its list of parameters are the same redacted. -/
theorem listedHeader?_redacted {s : Source} (hs : s.HasNoBreaks) (hopens : s.OpensLiterals)
    (n : Nat) :
    Option.Rel ListedHeader.Redacts (listedHeader? s n) (listedHeader? s.redacted n) := by
  simp only [listedHeader?, Source.line?_redacted, Option.bind_eq_bind]
  cases hline : s.line? n with
  | none => exact .none
  | some line =>
      have hread := hopens line (List.mem_of_getElem? hline)
      simp only [Option.map_some, Option.bind_some, Line.firstCode?_redacted, Line.redacted_length]
      cases hfirst : line.firstCode? with
      | none => exact .none
      | some first =>
          simp only [Option.bind_some]
          have hrel := read?_redacted hread hfirst
          generalize Header.read? (line.codeText.drop first) = x at hrel ⊢
          generalize Header.read? (line.redacted.codeText.drop first) = y at hrel ⊢
          cases hrel with
          | none => exact .none
          | @some x y hsame =>
              obtain ⟨hy, hlength⟩ := hsame
              have hname : y.name = x.name := by rw [hy]
              have hstatic : y.isStatic = x.isStatic := by rw [hy]
              simp only [Option.bind_some, hname, hlength, parameterCells?_redacted hs]
              split
              · exact .none
              · cases parameterCells? s ⟨n, line.length - x.rest.length - 1⟩ with
                | none => exact .none
                | some list => exact .some ⟨hname, hstatic, rfl, rfl, rfl⟩

/-! ### Declarations -/

/-- What is read of a declaration in a text, and in the redacted text. -/
structure Declaration.Redacts (s : Source) (cells : List Cell) (d d' : Declaration) : Prop where
  name : d'.name = d.name
  start : d'.start = d.start
  isStatic : d'.isStatic = d.isStatic
  returnType : d'.returnType = d.returnType
  headerLine : d'.headerLine = d.headerLine
  body : d'.body = d.body.reread s.redacted
  parameterList : d.parameterList = readParameters cells
  redactedList : d'.parameterList = readParameters (cells.map Cell.redacted)

/-- The cells between the parentheses of the header on a line. -/
def Source.listedCells (s : Source) (n : Nat) : List Cell :=
  ((listedHeader? s n).map ListedHeader.cells).getD []

/--
A line declares the same redacted, but for the end of an expression, and with the parameters that
are read from the redacted list.
-/
theorem declaration?_redacted {s : Source} (hs : s.HasNoBreaks) (hopens : s.OpensLiterals)
    (n : Nat) :
    Option.Rel (Declaration.Redacts s (s.listedCells n)) (declaration? s n)
      (declaration? s.redacted n) := by
  have hheader := listedHeader?_redacted hs hopens n
  rw [declaration?_eq, declaration?_eq, Source.listedCells]
  generalize listedHeader? s n = x at hheader ⊢
  generalize listedHeader? s.redacted n = y at hheader ⊢
  cases hheader with
  | none => exact .none
  | @some h h' hsame =>
      simp only [Option.bind_some, Option.map_some, Option.getD_some, hsame.closing, tail?_redacted]
      cases tail? s h.closing with
      | none => exact .none
      | some tail =>
          refine .some ⟨hsame.name, hsame.start, hsame.isStatic, rfl, rfl, rfl, rfl, ?_⟩
          simp only [ListedHeader.declare, hsame.cells]

end ScriptOutline
