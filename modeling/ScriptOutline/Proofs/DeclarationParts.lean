/-
**Where the parts of a declaration stand.**

A declaration is read from left to right: its first token, the parenthesis that opens the list of
parameters, the one that closes it, and the start of the body.  Later statements speak of these
places only, and not of how they were found.

Main definitions:

* `Body.start`, `Declaration.bodyStart` — the opening brace of a block, or the end of the arrow;
* `Declaration.Placed` — where the parts of a declaration stand in a text.

Main results:

* `Header.read?_spec` — a header is plain text before its parenthesis;
* `cellsToClose?_spec`, `tail?_spec` — where the list of parameters and the header end;
* `declaration?_placed` — every declaration that is read has its parts in order;
* `declarations_placed`, `declarations_pairwise` — so have all of a text, and each starts below the
  header of the one before.
-/

import ScriptOutline.Declaration.Reader
import ScriptOutline.Proofs.ReadingOrder
import ScriptOutline.Proofs.Words

set_option relaxedAutoImplicit false
set_option autoImplicit false

namespace ScriptOutline

/-! ### Headers -/

namespace Header

theorem named?_spec {isStatic : Bool} {cs : List Char} {h : Header}
    (hr : named? isStatic cs = some h) : ∃ before, cs = before ++ '(' :: h.rest ∧ Plain before := by
  unfold named? at hr
  split at hr
  · simp at hr
  · next name rest hname =>
      obtain ⟨hcs, hidentifier, -⟩ := identifier?_spec hname
      obtain ⟨blanks, hrest, hblanks⟩ := trimStart_spec rest
      split at hr
      · next inner hinner =>
          simp only [Option.some.injEq] at hr
          subst hr
          refine ⟨name ++ blanks, ?_,
            (plain_of_identifier hidentifier).append (plain_of_blanks hblanks)⟩
          rw [List.append_assoc, ← hinner, ← hrest, hcs]
      · simp at hr

/-- A header is plain text, a parenthesis, and what follows it. -/
theorem read?_spec {cs : List Char} {h : Header} (hr : read? cs = some h) :
    ∃ before, cs = before ++ '(' :: h.rest ∧ Plain before := by
  simp only [read?, Option.orElse_eq_orElse, Option.orElse_eq_or] at hr
  rcases Option.or_eq_some_iff.1 hr with hr | ⟨-, hr⟩
  · unfold static? at hr
    obtain ⟨named, hstatic, hnamed⟩ := Option.bind_eq_some_iff.1 hr
    obtain ⟨rest, hword, hblanks⟩ := Option.bind_eq_some_iff.1 hstatic
    obtain ⟨word, hcs, -, hletters⟩ := afterWord?_spec hword
    obtain ⟨blanks, hrest, hblank⟩ := afterBlanks?_spec hblanks
    obtain ⟨before, hbefore, hplain⟩ := named?_spec hnamed
    have hstaticPlain : Plain "static".toList := plain_of_all (by decide)
    refine ⟨word ++ blanks ++ before, ?_,
      ((plain_of_word hstaticPlain hletters).append (plain_of_blanks hblank)).append hplain⟩
    rw [List.append_assoc, ← hbefore, List.append_assoc, ← hrest, ← hcs]
  · exact named?_spec hr

theorem named?_identifier {isStatic : Bool} {cs : List Char} {h : Header}
    (hr : named? isStatic cs = some h) : isIdentifier h.name.toList = true := by
  unfold named? at hr
  split at hr
  · simp at hr
  · next name rest hname =>
      obtain ⟨-, hidentifier, -⟩ := identifier?_spec hname
      split at hr
      · simp only [Option.some.injEq] at hr
        rw [← hr, String.toList_ofList]
        exact hidentifier
      · simp at hr

/-- The name in a header is an identifier. -/
theorem read?_identifier {cs : List Char} {h : Header} (hr : read? cs = some h) :
    isIdentifier h.name.toList = true := by
  simp only [read?, Option.orElse_eq_orElse, Option.orElse_eq_or] at hr
  rcases Option.or_eq_some_iff.1 hr with hr | ⟨-, hr⟩
  · obtain ⟨_, -, hnamed⟩ := Option.bind_eq_some_iff.1 hr
    exact named?_identifier hnamed
  · exact named?_identifier hr

end Header

/-! ### The list of parameters -/

/-- The list of parameters ends at a closing parenthesis of the code. -/
theorem cellsToClose?_spec {lastLine depth : Nat} {spots : List Spot} {cells : List Cell}
    {p : Position} (h : cellsToClose? lastLine depth spots = some (cells, p)) :
    ⟨p, ⟨')', .code⟩⟩ ∈ spots := by
  induction spots generalizing depth cells with
  | nil => simp [cellsToClose?] at h
  | cons x rest ih =>
      simp only [cellsToClose?] at h
      split at h
      · simp at h
      · split at h
        · obtain ⟨⟨cells', p'⟩, hrest, heq⟩ := Option.map_eq_some_iff.1 h
          simp only [Prod.mk.injEq] at heq
          rw [heq.2] at hrest
          exact List.mem_cons_of_mem x (ih hrest)
        · split at h
          · next hcloser =>
              split at h
              · next hchar =>
                  obtain ⟨position, char, region⟩ := x
                  simp only [Option.some.injEq, Prod.mk.injEq] at h
                  simp only [Bool.and_eq_true, Cell.isCloser, Cell.isCode,
                    decide_eq_true_eq] at hcloser
                  simp only at hchar
                  obtain ⟨-, rfl⟩ := h
                  rw [hcloser.2.1, hchar]
                  exact List.mem_cons_self
              · simp at h
          · obtain ⟨⟨cells', p'⟩, hrest, heq⟩ := Option.map_eq_some_iff.1 h
            simp only [Prod.mk.injEq] at heq
            rw [heq.2] at hrest
            exact List.mem_cons_of_mem x (ih hrest)

/-! ### The tail -/

theorem dropBlankCode_suffix (cells : List Cell) : dropBlankCode cells <:+ cells :=
  List.dropWhile_suffix _

theorem afterPair?_eq_some {first second : Char} {cells rest : List Cell}
    (h : afterPair? first second cells = some rest) :
    cells = ⟨first, .code⟩ :: ⟨second, .code⟩ :: rest := by
  unfold afterPair? at h
  split at h
  · next c d rest' =>
      obtain ⟨char, region⟩ := c
      obtain ⟨char', region'⟩ := d
      split at h
      · next hpair =>
          simp only [Bool.and_eq_true, Cell.isCodeChar, Cell.isCode, decide_eq_true_eq] at hpair
          simp only [Option.some.injEq] at h
          obtain ⟨⟨rfl, rfl⟩, rfl, rfl⟩ := hpair
          rw [h]
      · simp at h
  · simp at h

theorem spanType_suffix (cells : List Cell) : (spanType cells).2 <:+ cells := by
  induction cells with
  | nil => exact List.suffix_refl _
  | cons c rest ih =>
      simp only [spanType]
      split
      · exact List.suffix_refl _
      · exact ih.trans (List.suffix_cons c rest)

/-- What follows the return type is a suffix of the cells it is read from. -/
theorem readReturnType?_suffix {cells rest : List Cell} {type : Option String}
    (h : readReturnType? cells = some (type, rest)) : rest <:+ cells := by
  unfold readReturnType? at h
  split at h
  · simp only [Option.some.injEq, Prod.mk.injEq] at h
    obtain ⟨-, rfl⟩ := h
    exact List.suffix_refl _
  · next inner hpair =>
      have hinner : inner <:+ cells :=
        ⟨[⟨'-', .code⟩, ⟨'>', .code⟩], (afterPair?_eq_some hpair).symm⟩
      have hafter := spanType_suffix (dropBlankCode inner)
      generalize spanType (dropBlankCode inner) = spanned at h hafter
      obtain ⟨typeText, after⟩ := spanned
      simp only at h hafter
      split at h
      · simp at h
      · simp only [Option.some.injEq, Prod.mk.injEq] at h
        rw [← h.2]
        exact ((dropBlankCode_suffix after).trans hafter).trans
          ((dropBlankCode_suffix inner).trans hinner)

/-- The first brace of lines is an opening brace of the code. -/
theorem firstBrace?_spec {n : Nat} {lines : List Line} {p : Position}
    (h : firstBrace? n lines = some p) :
    ∃ (k : Nat) (l : Line), p.line = n + k ∧ lines[k]? = some l ∧
      l.cells[p.column]? = some ⟨'{', .code⟩ := by
  induction lines generalizing n with
  | nil => simp [firstBrace?] at h
  | cons l rest ih =>
      simp only [firstBrace?] at h
      split at h
      · obtain ⟨k, l', hline, hk, hcell⟩ := ih h
        exact ⟨k + 1, l', by omega, by simpa using hk, hcell⟩
      · next column hfirst =>
          split at h
          · next hbrace =>
              simp only [Option.some.injEq] at h
              subst h
              obtain ⟨hlt, htoken, -⟩ := List.findIdx?_eq_some_iff_getElem.1 hfirst
              refine ⟨0, l, rfl, rfl, ?_⟩
              rw [List.getElem?_eq_getElem hlt] at hbrace ⊢
              simp only [Option.any_some, decide_eq_true_eq] at hbrace
              simp only [Line.isToken, Cell.isCode, Bool.and_eq_true, decide_eq_true_eq] at htoken
              simp only [Option.some.injEq]
              rw [← hbrace, ← htoken.1]
          · simp at h

/-- The brace below a line is an opening brace of the code, on a later line. -/
theorem nextBrace?_spec {s : Source} {n : Nat} {p : Position} (h : nextBrace? s n = some p) :
    n < p.line ∧ ∃ l, s.line? p.line = some l ∧ l.cells[p.column]? = some ⟨'{', .code⟩ := by
  obtain ⟨k, l, hline, hk, hcell⟩ := firstBrace?_spec h
  rw [List.getElem?_drop, ← hline] at hk
  exact ⟨by omega, l, hk, hcell⟩

/-- The start of a body: its opening brace, or just past its arrow. -/
def Body.start : Body → Position
  | .block opening _ => opening
  | .arrow start _ => start

/-- A body at a place of a text: a block at an opening brace, or an expression after an arrow. -/
def Body.IsAt (s : Source) (b : Body) : Prop :=
  (⟨b.start, ⟨'{', .code⟩⟩ ∈ s.spots ∧ b = blockAt s b.start) ∨
    (s.Reaches b.start ∧ b = arrowAt s b.start)

/-- A body below a line. -/
theorem blockAt_nextBrace? {s : Source} {n : Nat} {p : Position} (h : nextBrace? s n = some p) :
    n < (blockAt s p).start.line ∧ (blockAt s p).IsAt s := by
  obtain ⟨hline, l, hl, hcell⟩ := nextBrace?_spec h
  exact ⟨hline, Or.inl ⟨Source.mem_spots_of_cell hl hcell, rfl⟩⟩

/-- A body starts at or behind the cells it is read from, on the last line of the header. -/
theorem bodyFrom?_spec {s : Source} {line : Line} {n headerLine : Nat} {cells : List Cell}
    {body : Body} (hline : s.line? n = some line) (hsuffix : cells <:+ line.cells)
    (h : bodyFrom? s line n cells = some (body, headerLine)) :
    body.IsAt s ∧ body.start.line = headerLine ∧ ⟨n, line.length - cells.length⟩ ≤ body.start := by
  obtain ⟨before, hcells⟩ := hsuffix
  have hlength : before.length = line.length - cells.length := by
    rw [Line.length, ← hcells, List.length_append]
    omega
  have below {p : Position} (hp : nextBrace? s n = some p) :
      (blockAt s p).IsAt s ∧ (blockAt s p).start.line = p.line ∧
        ⟨n, line.length - cells.length⟩ ≤ (blockAt s p).start := by
    obtain ⟨hlt, hat⟩ := blockAt_nextBrace? hp
    exact ⟨hat, rfl, le_of_lt (Position.lt_of_line_lt hlt)⟩
  unfold bodyFrom? at h
  split at h
  · obtain ⟨p, hp, heq⟩ := Option.map_eq_some_iff.1 h
    simp only [Prod.mk.injEq] at heq
    obtain ⟨rfl, rfl⟩ := heq
    exact below hp
  · next c rest =>
      split at h
      · obtain ⟨p, hp, heq⟩ := Option.map_eq_some_iff.1 h
        simp only [Prod.mk.injEq] at heq
        obtain ⟨rfl, rfl⟩ := heq
        exact below hp
      · split at h
        · next hbrace =>
            simp only [Option.some.injEq, Prod.mk.injEq] at h
            obtain ⟨rfl, rfl⟩ := h
            refine ⟨Or.inl ⟨?_, rfl⟩, rfl, le_refl _⟩
            refine Source.mem_spots_of_cell hline ?_
            obtain ⟨char, region⟩ := c
            simp only [Cell.isCodeChar, Cell.isCode, Bool.and_eq_true, decide_eq_true_eq] at hbrace
            rw [← hcells, ← hlength, List.getElem?_append_right (Nat.le_refl _), Nat.sub_self,
              hbrace.1, hbrace.2]
            rfl
        · split at h
          · next harrow =>
              simp only [Option.some.injEq, Prod.mk.injEq] at h
              obtain ⟨rfl, rfl⟩ := h
              obtain ⟨after, hafter⟩ := Option.isSome_iff_exists.1 harrow
              have hpair := afterPair?_eq_some hafter
              refine ⟨Or.inr ⟨⟨line, hline, ?_⟩, rfl⟩, rfl, ?_⟩
              · have htwo : 2 ≤ (c :: rest).length := by simp [hpair]
                have hle : (c :: rest).length ≤ line.length := by
                  rw [Line.length, ← hcells, List.length_append]
                  omega
                simp only [Body.start, arrowAt]
                omega
              · rw [Position.le_iff]
                exact Or.inr ⟨rfl, by simp only [Body.start, arrowAt]; omega⟩
          · simp at h

/-- A body starts behind the closing parenthesis, on the last line of the header. -/
theorem tail?_spec {s : Source} {closing : Position} {t : Tail} (h : tail? s closing = some t) :
    t.body.IsAt s ∧ t.body.start.line = t.headerLine ∧
      (s.Reaches closing.next → closing < t.body.start) := by
  simp only [tail?, Option.bind_eq_bind, Option.bind_eq_some_iff] at h
  obtain ⟨line, hline, ⟨type, cells⟩, htype, ⟨body, headerLine⟩, hbody, ht⟩ := h
  simp only [Option.pure_def, Option.some.injEq] at ht
  subst ht
  have hsuffix : cells <:+ line.cells.drop (closing.column + 1) :=
    (readReturnType?_suffix htype).trans (dropBlankCode_suffix _)
  obtain ⟨hat, hheader, hle⟩ :=
    bodyFrom?_spec hline (hsuffix.trans (List.drop_suffix _ _)) hbody
  refine ⟨hat, hheader, ?_⟩
  rintro ⟨l, hl, hcolumn⟩
  simp only [Position.next] at hl hcolumn
  rw [hline, Option.some.injEq] at hl
  subst hl
  refine lt_of_lt_of_le ?_ hle
  have hlength := hsuffix.length_le
  rw [List.length_drop] at hlength
  rw [Position.lt_iff]
  exact Or.inr ⟨rfl, by simp only [Line.length] at *; omega⟩

/-! ### Declarations -/

/-- A header with its list of parameters, before it is known whether a body follows. -/
structure ListedHeader where
  header : Header
  start : Position
  /-- The cells between the parentheses. -/
  cells : List Cell
  /-- The closing parenthesis. -/
  closing : Position

/-- The header on a line, if its name is not reserved and its list of parameters closes. -/
def listedHeader? (s : Source) (n : Nat) : Option ListedHeader := do
  let line ← s.line? n
  let first ← line.firstCode?
  let header ← Header.read? (line.codeText.drop first)
  if isKeyword header.name then none
  else
    let (cells, closing) ← parameterCells? s ⟨n, line.length - header.rest.length - 1⟩
    return ⟨header, ⟨n, first⟩, cells, closing⟩

/-- The declaration that a header makes with what follows it. -/
def ListedHeader.declare (h : ListedHeader) (t : Tail) : Declaration :=
  { name := h.header.name
    start := h.start
    isStatic := h.header.isStatic
    parameterList := readParameters h.cells
    returnType := t.returnType
    body := t.body
    headerLine := t.headerLine }

/-- A declaration is a header and the tail behind its list of parameters. -/
theorem declaration?_eq (s : Source) (n : Nat) :
    declaration? s n = (listedHeader? s n).bind fun h => (tail? s h.closing).map h.declare := by
  unfold declaration? listedHeader?
  simp only [Option.bind_eq_bind, Option.bind_assoc]
  congr 1
  funext line
  congr 1
  funext first
  congr 1
  funext header
  split
  · rfl
  · simp only [Option.bind_assoc]
    congr 1
    funext list
    simp only [Option.pure_def, Option.bind_some]
    cases tail? s list.2 <;> rfl

theorem declaration?_eq_some_iff {s : Source} {n : Nat} {d : Declaration} :
    declaration? s n = some d ↔
      ∃ h t, listedHeader? s n = some h ∧ tail? s h.closing = some t ∧ h.declare t = d := by
  rw [declaration?_eq, Option.bind_eq_some_iff]
  simp only [Option.map_eq_some_iff]
  constructor
  · rintro ⟨h, hh, t, ht, rfl⟩
    exact ⟨h, t, hh, ht, rfl⟩
  · rintro ⟨h, t, hh, ht, rfl⟩
    exact ⟨h, hh, t, ht, rfl⟩

/-- What it takes for a line to have a header with its list of parameters. -/
theorem listedHeader?_eq_some {s : Source} {n : Nat} {h : ListedHeader}
    (hh : listedHeader? s n = some h) :
    ∃ line, s.line? n = some line ∧ h.start.line = n ∧ line.firstCode? = some h.start.column ∧
      Header.read? (line.codeText.drop h.start.column) = some h.header ∧
        isKeyword h.header.name = false ∧
          parameterCells? s ⟨n, line.length - h.header.rest.length - 1⟩ =
            some (h.cells, h.closing) := by
  simp only [listedHeader?, Option.bind_eq_bind, Option.bind_eq_some_iff] at hh
  obtain ⟨line, hline, first, hfirst, header, hheader, hh⟩ := hh
  split at hh
  · simp at hh
  · next hkeyword =>
      simp only [Option.bind_eq_some_iff, Option.pure_def, Option.some.injEq] at hh
      obtain ⟨list, hlist, rfl⟩ := hh
      exact ⟨line, hline, rfl, hfirst, hheader, by simpa using hkeyword, hlist⟩

namespace Declaration

/-- The start of the body of a declaration. -/
def bodyStart (d : Declaration) : Position :=
  d.body.start

/-- The parts of a declaration, from left to right in a text. -/
structure Placed (s : Source) (d : Declaration) : Prop where
  /-- It starts at a token. -/
  start_token : ∃ c, ⟨d.start, c⟩ ∈ s.spots ∧ Line.isToken c = true
  /-- The body starts behind it, -/
  start_lt : d.start < d.bodyStart
  /-- at a brace or behind an arrow, -/
  body_isAt : d.body.IsAt s
  /-- on the last line of the header. -/
  bodyStart_line : d.bodyStart.line = d.headerLine

end Declaration

/-- The first code of a line is a token. -/
theorem Line.isToken_of_firstCode? {l : Line} {first : Nat} (h : l.firstCode? = some first) :
    ∃ c, l.cells[first]? = some c ∧ Line.isToken c = true := by
  obtain ⟨hlt, htoken, -⟩ := List.findIdx?_eq_some_iff_getElem.1 h
  exact ⟨l.cells[first], List.getElem?_eq_getElem hlt, htoken⟩

/-- The column of a character that is found in what a line reads as. -/
theorem Line.column_eq_of_drop {l : Line} {first : Nat} {before rest : List Char} {char : Char}
    (h : l.codeText.drop first = before ++ char :: rest) :
    first + before.length = l.length - rest.length - 1 := by
  have hlength := congrArg List.length h
  simp only [List.length_drop, Line.codeText_length, List.length_append,
    List.length_cons] at hlength
  omega

/-- The list of parameters closes behind its opening parenthesis. -/
theorem parameterCells?_spec {s : Source} {opening closing : Position} {cells : List Cell}
    (hr : s.Reaches opening.next) (h : parameterCells? s opening = some (cells, closing)) :
    opening < closing ∧ ⟨closing, ⟨')', .code⟩⟩ ∈ s.spots := by
  have hmem := cellsToClose?_spec h
  rw [Source.mem_spotsFrom_iff hr] at hmem
  exact ⟨Position.next_le_iff.1 hmem.2, hmem.1⟩

/-- A spot of the code is a cell of its line. -/
theorem Source.cell_of_code_mem {s : Source} {p : Position} {c : Char}
    (h : ⟨p, ⟨c, .code⟩⟩ ∈ s.spots) (hc : c ≠ '\n') :
    ∃ l, s.line? p.line = some l ∧ l.cells[p.column]? = some ⟨c, .code⟩ := by
  obtain ⟨l, hl, hcell | hbreak⟩ := mem_spots_iff.1 h
  · exact ⟨l, hl, hcell⟩
  · simp only [Line.breakSpot, Spot.mk.injEq, Cell.mk.injEq] at hbreak
    exact absurd hbreak.2.1 hc

/-- Every declaration that is read has its parts in order, and starts on the line it is read on. -/
theorem declaration?_placed {s : Source} {n : Nat} {d : Declaration}
    (h : declaration? s n = some d) : d.Placed s ∧ d.start.line = n := by
  obtain ⟨listed, tail, hlisted, htail, rfl⟩ := declaration?_eq_some_iff.1 h
  obtain ⟨line, hline, hn, hfirst, hheader, -, hcells⟩ := listedHeader?_eq_some hlisted
  obtain ⟨c, hc, htoken⟩ := Line.isToken_of_firstCode? hfirst
  obtain ⟨before, hbefore, -⟩ := Header.read?_spec hheader
  have hcolumn := Line.column_eq_of_drop hbefore
  have hfirstLt : listed.start.column < line.length := (List.getElem?_eq_some_iff.1 hc).1
  -- the opening parenthesis stands on the line, so what follows it can be walked over
  have hreaches : s.Reaches
      (Position.next ⟨n, line.length - listed.header.rest.length - 1⟩) :=
    ⟨line, hline, by simp only [Position.next]; omega⟩
  obtain ⟨hopening, hclosing⟩ := parameterCells?_spec hreaches hcells
  obtain ⟨l, hl, hcell⟩ := Source.cell_of_code_mem hclosing (by decide)
  obtain ⟨hat, hheaderLine, hbody⟩ := tail?_spec htail
  subst hn
  refine ⟨⟨⟨c, Source.mem_spots_of_cell hline hc, htoken⟩, ?_, hat, hheaderLine⟩, rfl⟩
  calc listed.start
    _ ≤ ⟨listed.start.line, line.length - listed.header.rest.length - 1⟩ := by
        rw [Position.le_iff]
        exact Or.inr ⟨rfl, by simp only; omega⟩
    _ < listed.closing := hopening
    _ < tail.body.start := hbody (Source.reaches_next_of_cell hl hcell)

/-- Declarations are read on their lines, and below the lines that are skipped. -/
theorem mem_declarationsFrom {s : Source} {n skip : Nat} {lines : List Line} {d : Declaration}
    (h : d ∈ declarationsFrom s n skip lines) :
    declaration? s d.start.line = some d ∧ n + skip ≤ d.start.line := by
  induction lines generalizing n skip with
  | nil => simp [declarationsFrom] at h
  | cons l rest ih =>
      simp only [declarationsFrom] at h
      split at h
      · obtain ⟨hd, hle⟩ := ih h
        exact ⟨hd, by omega⟩
      · split at h
        · next e he =>
            rcases List.mem_cons.1 h with rfl | h
            · obtain ⟨-, hline⟩ := declaration?_placed he
              exact ⟨by rw [hline]; exact he, by omega⟩
            · obtain ⟨hd, hle⟩ := ih h
              exact ⟨hd, by omega⟩
        · obtain ⟨hd, hle⟩ := ih h
          exact ⟨hd, by omega⟩

theorem declarationsFrom_pairwise (s : Source) (n skip : Nat) (lines : List Line) :
    (declarationsFrom s n skip lines).Pairwise fun d e => d.headerLine < e.start.line := by
  induction lines generalizing n skip with
  | nil => exact List.Pairwise.nil
  | cons l rest ih =>
      simp only [declarationsFrom]
      split
      · exact ih _ _
      · split
        · next d hd =>
            refine List.Pairwise.cons ?_ (ih _ _)
            intro e he
            obtain ⟨-, hle⟩ := mem_declarationsFrom he
            omega
        · exact ih _ _

/-- Every declaration of a text has its parts in order. -/
theorem declarations_placed {s : Source} {d : Declaration} (h : d ∈ declarations s) :
    d.Placed s :=
  (declaration?_placed (mem_declarationsFrom h).1).1

/-- Every declaration of a text starts below the headers of those before it. -/
theorem declarations_pairwise (s : Source) :
    (declarations s).Pairwise fun d e => d.headerLine < e.start.line :=
  declarationsFrom_pairwise s 0 0 s.lines

/-- Of two declarations the one that starts later lies below the header of the other. -/
theorem bodyStart_lt_of_start_lt {s : Source} {d e : Declaration} (hd : d ∈ declarations s)
    (he : e ∈ declarations s) (h : d.start < e.start) : d.bodyStart.line < e.start.line := by
  have hplaced := declarations_placed hd
  obtain ⟨before, after, hsplit⟩ := List.append_of_mem hd
  have hp := declarations_pairwise s
  rw [hsplit] at hp he
  obtain ⟨-, hafter, hbefore⟩ := List.pairwise_append.1 hp
  rw [hplaced.bodyStart_line]
  rcases List.mem_append.1 he with he | he
  · -- a declaration that is listed before starts above, and so it does not start later
    have hline : e.headerLine < d.start.line := hbefore e he d List.mem_cons_self
    have heplaced : e.Placed s := declarations_placed (by rw [hsplit]; simp [he])
    have hlt := lt_trans h heplaced.start_lt
    have hle := Position.line_le_of_le (le_of_lt hlt)
    rw [heplaced.bodyStart_line] at hle
    omega
  · rcases List.mem_cons.1 he with rfl | he
    · exact absurd h (lt_irrefl _)
    · exact List.rel_of_pairwise_cons hafter he

end ScriptOutline
