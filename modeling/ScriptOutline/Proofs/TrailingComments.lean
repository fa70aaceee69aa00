/-
**Comments at the ends of lines.**

More comment at the ends of lines, such as blanks behind a line that ends in a block comment, makes
no difference to where declarations start.  Where their headers end is the same too; only an
expression after an arrow may end elsewhere, as far as columns go.

Main definitions:

* `Line.Extends` — a line with more comment behind it;
* `Declaration.place` — where a declaration starts, and the last line of its header.

Main results:

* `Header.read?_blanks` — a header with blanks behind it;
* `readReturnType?_comment`, `tail?_extends` — what follows the parameters;
* `cellsToClose?_extends` — the parenthesis that closes the parameters;
* `declaration?_extends` — the declaration on a line;
* `declarations_extends` — **declarations start at the same places**.
-/

import Mathlib.Data.List.Forall2
import ScriptOutline.Proofs.DeclarationParts
import ScriptOutline.Proofs.RedactedDeclarations

set_option relaxedAutoImplicit false
set_option autoImplicit false

namespace ScriptOutline

/-! ### Headers -/

/-- Blanks behind a header are part of what follows its parenthesis. -/
theorem Header.read?_blanks {blanks : List Char} (h : '(' ∉ blanks) (cs : List Char) :
    Header.read? (cs ++ blanks) = (Header.read? cs).map (Header.followedBy blanks) := by
  by_cases hmem : '(' ∈ cs
  · obtain ⟨before, rest, rfl⟩ := List.append_of_mem hmem
    have hboth (inner : Header) :
        (inner.followedBy rest).followedBy blanks = inner.followedBy (rest ++ blanks) := by
      simp [Header.followedBy]
    rw [List.append_assoc, List.cons_append, Header.read?_append, Header.read?_append before rest,
      Option.map_map]
    congr 1
    funext inner
    exact (hboth inner).symm
  · have hnone {text : List Char} (htext : '(' ∉ text) : Header.read? text = none := by
      cases hread : Header.read? text with
      | none => rfl
      | some header =>
          obtain ⟨before, hbefore, -⟩ := Header.read?_spec hread
          exact absurd (by rw [hbefore]; simp) htext
    rw [hnone hmem, hnone (by simp [hmem, h])]
    rfl

/-! ### Cells with comment behind them -/

section

variable {more : List Cell} (hmore : ∀ c ∈ more, c.isComment = true)

include hmore

theorem dropBlankCode_comment (cells : List Cell) :
    dropBlankCode (cells ++ more) = dropBlankCode cells ++ more := by
  have hkeep : dropBlankCode more = more := dropBlankCode_of_comment fun c hc =>
    hmore c (List.mem_of_mem_head? hc)
  rw [dropBlankCode, List.dropWhile_append]
  split
  · next hempty =>
      rw [dropBlankCode, List.isEmpty_iff.1 hempty]
      exact hkeep
  · rfl

theorem afterPair?_comment (first second : Char) (cells : List Cell) :
    afterPair? first second (cells ++ more) = (afterPair? first second cells).map (· ++ more) := by
  have hnot {c : Cell} (hc : c ∈ more) (char : Char) : c.isCodeChar char = false := by
    simp [Cell.isCodeChar, Cell.isCode_of_isComment (hmore c hc)]
  cases cells with
  | nil =>
      cases more with
      | nil => rfl
      | cons c more =>
          cases more with
          | nil => rfl
          | cons d more => simp [afterPair?, hnot List.mem_cons_self]
  | cons c cells =>
      cases cells with
      | nil =>
          cases more with
          | nil => rfl
          | cons d more => simp [afterPair?, hnot List.mem_cons_self]
      | cons d cells =>
          simp only [List.cons_append, afterPair?]
          split <;> rfl

theorem spanType_comment (cells : List Cell) :
    spanType (cells ++ more) = ((spanType cells).1, (spanType cells).2 ++ more) := by
  induction cells with
  | nil => exact spanType_of_comment fun c hc => hmore c (List.mem_of_mem_head? hc)
  | cons c rest ih =>
      have hpair : (afterPair? '=' '>' (c :: (rest ++ more))).isSome =
          (afterPair? '=' '>' (c :: rest)).isSome := by
        rw [← List.cons_append, afterPair?_comment hmore, Option.isSome_map]
      simp only [List.cons_append, spanType, hpair, ih]
      split <;> rfl

/-- A return type is read up to where a comment starts. -/
theorem readReturnType?_comment (cells : List Cell) :
    readReturnType? (cells ++ more) =
      (readReturnType? cells).map fun found => (found.1, found.2 ++ more) := by
  simp only [readReturnType?, afterPair?_comment hmore]
  cases afterPair? '-' '>' cells with
  | none => rfl
  | some rest =>
      simp only [Option.map_some, dropBlankCode_comment hmore, spanType_comment hmore]
      split <;> rfl

end

/-! ### Lines with comment behind them -/

/-- A line with more comment behind it. -/
def Line.Extends (l l' : Line) : Prop :=
  ∃ more : List Cell, (∀ c ∈ more, c.isComment = true) ∧ l'.cells = l.cells ++ more

theorem Line.Extends.firstCode? {l l' : Line} (h : l.Extends l') :
    l'.firstCode? = l.firstCode? := by
  obtain ⟨more, hmore, hcells⟩ := h
  have hnone : more.findIdx? Line.isToken = none := by
    rw [List.findIdx?_eq_none_iff]
    intro c hc
    simp [Line.isToken, Cell.isCode_of_isComment (hmore c hc)]
  simp [Line.firstCode?, hcells, List.findIdx?_append, hnone]

/-- All that is added to the code of a line is blank. -/
theorem Line.Extends.exists_codeText {l l' : Line} (h : l.Extends l') :
    ∃ blanks, '(' ∉ blanks ∧ l'.codeText = l.codeText ++ blanks := by
  obtain ⟨more, hmore, hcells⟩ := h
  refine ⟨more.map Cell.visible, ?_, by simp [Line.codeText, hcells]⟩
  simp only [List.mem_map, not_exists, not_and]
  intro c hc
  simp [Cell.visible, hmore c hc]

/-- The next brace below a line is the same. -/
theorem firstBrace?_extends {lines lines' : List Line} (h : List.Forall₂ Line.Extends lines lines')
    (n : Nat) : firstBrace? n lines' = firstBrace? n lines := by
  induction h generalizing n with
  | nil => rfl
  | @cons l l' rest rest' hl _ ih =>
      simp only [firstBrace?, hl.firstCode?, ih]
      cases hfirst : l.firstCode? with
      | none => rfl
      | some column =>
          obtain ⟨more, -, hcells⟩ := hl
          have hlt : column < l.cells.length := (List.findIdx?_eq_some_iff_getElem.1 hfirst).1
          simp only [hcells, List.getElem?_append_left hlt]

/-- The place of the parenthesis that closes a list of parameters. -/
def closingOf? (lastLine depth : Nat) (spots : List Spot) : Option Position :=
  (cellsToClose? lastLine depth spots).map Prod.snd

theorem closingOf?_cons (lastLine depth : Nat) (x : Spot) (rest : List Spot) :
    closingOf? lastLine depth (x :: rest) =
      if lastLine < x.position.line then none
      else if x.isBreak || x.cell.isComment then closingOf? lastLine depth rest
      else if depth = 0 && x.cell.isCloser then
        if x.cell.char = ')' then some x.position else none
      else closingOf? lastLine (bracketStep depth x.cell) rest := by
  simp only [closingOf?, cellsToClose?]
  split
  · rfl
  · split
    · rw [Option.map_map]
      rfl
    · split
      · split <;> rfl
      · rw [Option.map_map]
        rfl

/-- Comment before a line break is passed over with it. -/
theorem closingOf?_comment {more : List Cell} (hmore : ∀ c ∈ more, c.isComment = true)
    (lastLine depth n column : Nat) {brk : Spot} (hbreak : brk.isBreak = true)
    (hline : brk.position.line = n) (rest : List Spot) :
    closingOf? lastLine depth (spotsOfCells n column more ++ brk :: rest) =
      if lastLine < n then none else closingOf? lastLine depth rest := by
  induction more generalizing column with
  | nil =>
      rw [spotsOfCells, List.nil_append, closingOf?_cons, hline, hbreak]
      rfl
  | cons c more ih =>
      obtain ⟨hc, hmore⟩ := List.forall_mem_cons.1 hmore
      rw [spotsOfCells, List.cons_append, closingOf?_cons]
      simp only [hc, Bool.or_true, if_true, ih hmore]
      split <;> rfl

/-- Where a list of parameters closes does not depend on comment behind its lines. -/
theorem closingOf?_line {more : List Cell} (hmore : ∀ c ∈ more, c.isComment = true)
    (lastLine depth n column : Nat) (cells : List Cell) {brk brk' : Spot}
    (hbreak : brk.isBreak = true ∧ brk.position.line = n)
    (hbreak' : brk'.isBreak = true ∧ brk'.position.line = n) {rest rest' : List Spot}
    (hrest : ∀ depth, closingOf? lastLine depth rest' = closingOf? lastLine depth rest) :
    closingOf? lastLine depth (spotsOfCells n column (cells ++ more) ++ brk' :: rest') =
      closingOf? lastLine depth (spotsOfCells n column cells ++ brk :: rest) := by
  induction cells generalizing depth column with
  | nil =>
      have hnil : ∀ c ∈ ([] : List Cell), c.isComment = true := by simp
      rw [List.nil_append, closingOf?_comment hmore _ _ _ _ hbreak'.1 hbreak'.2,
        closingOf?_comment hnil _ _ _ _ hbreak.1 hbreak.2, hrest]
  | cons c cells ih =>
      simp only [List.cons_append, spotsOfCells, closingOf?_cons, ih]

theorem Line.Extends.closingOf?_spotsFrom {l l' : Line} (h : l.Extends l')
    (lastLine depth n column : Nat) {rest rest' : List Spot}
    (hrest : ∀ depth, closingOf? lastLine depth rest' = closingOf? lastLine depth rest) :
    closingOf? lastLine depth (l'.spotsFrom n column ++ rest') =
      closingOf? lastLine depth (l.spotsFrom n column ++ rest) := by
  obtain ⟨more, hmore, hcells⟩ := h
  have hmore' : ∀ c ∈ more.drop (column - l.cells.length), c.isComment = true :=
    fun c hc => hmore c (List.mem_of_mem_drop hc)
  have hbreak (k : Nat) (region : Region) : Spot.isBreak ⟨⟨n, k⟩, ⟨'\n', region⟩⟩ = true := by
    simp [Spot.isBreak]
  simp only [Line.spotsFrom, hcells, List.drop_append, List.append_assoc, List.singleton_append]
  exact closingOf?_line hmore' lastLine depth n column _ ⟨hbreak _ _, rfl⟩ ⟨hbreak _ _, rfl⟩ hrest

theorem closingOf?_extends {lines lines' : List Line} (h : List.Forall₂ Line.Extends lines lines')
    (lastLine depth n : Nat) :
    closingOf? lastLine depth (spotsOfLines n lines') =
      closingOf? lastLine depth (spotsOfLines n lines) := by
  induction h generalizing depth n with
  | nil => rfl
  | cons hl _ ih =>
      exact hl.closingOf?_spotsFrom lastLine depth n 0 fun depth => ih depth (n + 1)

/-! ### Texts with comment behind their lines -/

section

variable {s s' : Source} (h : List.Forall₂ Line.Extends s.lines s'.lines)

include h

/-- A line of one text is a line of the other, but for the comment behind it. -/
theorem line?_extends (n : Nat) :
    (s.line? n = none ∧ s'.line? n = none) ∨
      ∃ l l', s.line? n = some l ∧ s'.line? n = some l' ∧ l.Extends l' := by
  obtain ⟨hlength, hget⟩ := List.forall₂_iff_get.1 h
  by_cases hn : n < s.lines.length
  · right
    exact ⟨_, _, List.getElem?_eq_getElem hn, List.getElem?_eq_getElem (hlength ▸ hn),
      hget n hn (hlength ▸ hn)⟩
  · left
    exact ⟨List.getElem?_eq_none (by omega), List.getElem?_eq_none (by omega)⟩

theorem nextBrace?_extends (n : Nat) : nextBrace? s' n = nextBrace? s n :=
  firstBrace?_extends (List.forall₂_drop (n + 1) h) (n + 1)

theorem parameterCells?_extends (opening : Position) :
    (parameterCells? s' opening).map Prod.snd = (parameterCells? s opening).map Prod.snd := by
  have hdrop := List.forall₂_drop opening.next.line h
  simp only [parameterCells?, Source.spotsFrom]
  cases hlines : s.lines.drop opening.next.line with
  | nil =>
      rw [hlines, List.forall₂_nil_left_iff] at hdrop
      rw [hdrop]
  | cons l rest =>
      rw [hlines, List.forall₂_cons_left_iff] at hdrop
      obtain ⟨l', rest', hl, hrest, hlines'⟩ := hdrop
      rw [hlines']
      exact hl.closingOf?_spotsFrom _ _ _ _ fun depth => closingOf?_extends hrest _ depth _

/-- A header closes its parameters at the same place. -/
theorem listedHeader?_extends (n : Nat) :
    (listedHeader? s' n).map (fun header => (header.start, header.closing)) =
      (listedHeader? s n).map fun header => (header.start, header.closing) := by
  rcases line?_extends h n with ⟨hnone, hnone'⟩ | ⟨l, l', hl, hl', hext⟩
  · simp [listedHeader?, hnone, hnone']
  obtain ⟨blanks, hblanks, hcode⟩ := hext.exists_codeText
  have hlength : l'.length = l.length + blanks.length := by
    rw [← Line.codeText_length, hcode, List.length_append, Line.codeText_length]
  unfold listedHeader?
  rw [hl, hl', Option.bind_eq_bind, Option.bind_eq_bind, Option.bind_some, Option.bind_some,
    hext.firstCode?]
  cases hfirst : l.firstCode? with
  | none => rfl
  | some first =>
      have hlt : first < l.codeText.length := by
        rw [Line.codeText_length]
        exact (List.findIdx?_eq_some_iff_getElem.1 hfirst).1
      simp only [Option.bind_eq_bind, Option.bind_some, hcode,
        List.drop_append_of_le_length (le_of_lt hlt), Header.read?_blanks hblanks]
      cases Header.read? (l.codeText.drop first) with
      | none => rfl
      | some header =>
          have hopening : l'.length - (header.followedBy blanks).rest.length - 1 =
              l.length - header.rest.length - 1 := by
            simp only [Header.followedBy, List.length_append, hlength]
            omega
          have hlist := parameterCells?_extends h ⟨n, l.length - header.rest.length - 1⟩
          simp only [Option.map_some, Option.bind_some, hopening]
          rw [show (header.followedBy blanks).name = header.name from rfl]
          split
          · rfl
          · cases hcells' : parameterCells? s' ⟨n, l.length - header.rest.length - 1⟩ with
            | none =>
                rw [hcells', Option.map_none, eq_comm, Option.map_eq_none_iff] at hlist
                rw [hlist]
                rfl
            | some found' =>
                rw [hcells', Option.map_some, eq_comm, Option.map_eq_some_iff] at hlist
                obtain ⟨found, hfound, hsame⟩ := hlist
                simp [hfound, hsame]

/-- A body that follows has its header end on the same line. -/
theorem bodyFrom?_extends {more : List Cell} (hmore : ∀ c ∈ more, c.isComment = true)
    (l l' : Line) (n : Nat) (cells : List Cell) :
    (bodyFrom? s' l' n (cells ++ more)).map Prod.snd = (bodyFrom? s l n cells).map Prod.snd := by
  have hnext : ((nextBrace? s' n).map fun opening => (blockAt s' opening, opening.line)).map
      Prod.snd = ((nextBrace? s n).map fun opening => (blockAt s opening, opening.line)).map
      Prod.snd := by
    rw [nextBrace?_extends h, Option.map_map, Option.map_map]
    rfl
  cases cells with
  | nil =>
      rw [List.nil_append,
        bodyFrom?_of_comment fun c hc => hmore c (List.mem_of_mem_head? hc)]
      exact hnext
  | cons c rest =>
      have hpair : (afterPair? '=' '>' (c :: (rest ++ more))).isSome =
          (afterPair? '=' '>' (c :: rest)).isSome := by
        rw [← List.cons_append, afterPair?_comment hmore, Option.isSome_map]
      simp only [List.cons_append, bodyFrom?, hpair]
      split
      · exact hnext
      · split
        · rfl
        · split <;> rfl

/-- What follows the parameters has its header end on the same line. -/
theorem tail?_extends (closing : Position) :
    (tail? s' closing).map Tail.headerLine = (tail? s closing).map Tail.headerLine := by
  rcases line?_extends h closing.line with ⟨hnone, hnone'⟩ | ⟨l, l', hl, hl', more, hmore, hcells⟩
  · simp [tail?, hnone, hnone']
  have hmore' : ∀ c ∈ more.drop (closing.column + 1 - l.cells.length), c.isComment = true :=
    fun c hc => hmore c (List.mem_of_mem_drop hc)
  have hline (source : Source) (line : Line) (type : Option String) (cells : List Cell) :
      ((bodyFrom? source line closing.line cells).bind fun body =>
          some (⟨type, body.1, body.2⟩ : Tail)).map Tail.headerLine =
        (bodyFrom? source line closing.line cells).map Prod.snd := by
    cases bodyFrom? source line closing.line cells <;> rfl
  unfold tail?
  simp only [hl, hl', Option.bind_eq_bind, Option.bind_some, hcells, List.drop_append,
    dropBlankCode_comment hmore', readReturnType?_comment hmore', Option.pure_def]
  cases readReturnType? (dropBlankCode (l.cells.drop (closing.column + 1))) with
  | none => rfl
  | some found =>
      simp only [Option.map_some, Option.bind_some]
      exact (hline s' l' found.1 _).trans
        ((bodyFrom?_extends h hmore' l l' _ found.2).trans (hline s l found.1 found.2).symm)

/-! ### Declarations -/

/-- Where a declaration starts, and the last line of its header. -/
def Declaration.place (d : Declaration) : Position × Nat :=
  (d.start, d.headerLine)

/-- A line has a declaration in one text if it has one in the other, at the same place. -/
theorem declaration?_extends (n : Nat) :
    (declaration? s' n).map Declaration.place = (declaration? s n).map Declaration.place := by
  have hplace (source : Source) : (declaration? source n).map Declaration.place =
      ((listedHeader? source n).map fun header => (header.start, header.closing)).bind fun found =>
        ((tail? source found.2).map Tail.headerLine).map fun line => (found.1, line) := by
    rw [declaration?_eq]
    cases listedHeader? source n with
    | none => rfl
    | some header =>
        simp only [Option.map_some, Option.bind_some, Option.map_map]
        rfl
  rw [hplace, hplace, listedHeader?_extends h]
  simp only [tail?_extends h]

theorem declarationsFrom_extends {lines lines' : List Line} (hlines : lines'.length = lines.length)
    (n skip : Nat) :
    (declarationsFrom s' n skip lines').map Declaration.place =
      (declarationsFrom s n skip lines).map Declaration.place := by
  induction lines generalizing lines' n skip with
  | nil => rw [List.length_eq_zero_iff.1 hlines]; rfl
  | cons l rest ih =>
      obtain ⟨l', rest', rfl⟩ := List.exists_cons_of_length_eq_add_one hlines
      have hrest : rest'.length = rest.length := by simpa using hlines
      have hdeclaration := declaration?_extends h n
      simp only [declarationsFrom]
      split
      · exact ih hrest _ _
      · cases hfound : declaration? s n with
        | none =>
            rw [hfound, Option.map_none, Option.map_eq_none_iff] at hdeclaration
            rw [hdeclaration]
            exact ih hrest _ _
        | some d =>
            rw [hfound, Option.map_some, Option.map_eq_some_iff] at hdeclaration
            obtain ⟨d', hfound', hplace⟩ := hdeclaration
            rw [hfound']
            have hheader : d'.headerLine = d.headerLine := congrArg Prod.snd hplace
            simp only [List.map_cons, hplace, hheader, ih hrest]

/-- **Declarations start at the same places, whatever comment stands at the ends of lines.** -/
theorem declarations_extends :
    (declarations s').map Declaration.place = (declarations s).map Declaration.place :=
  declarationsFrom_extends h h.length_eq.symm 0 0

end

end ScriptOutline
