/-
**What stands above other lines.**

A text is closed off if its braces and brackets close and its last line is a closing brace.  More
lines below do not change what is declared in it: every walk that starts in the text ends in it.
The last line itself declares nothing, and every line above it has that brace below it, so that no
search for an opening brace gets past the end.

Main definitions:

* `Line.ink`, `Source.IsClosed` — a text that is closed off;
* `Source.IsAtop` — a closed text above other lines;
* `Body.reread` — the body that starts at the same place in another text.

Main results:

* `Source.IsAtop.arrowAt_eq`, `Source.IsAtop.nextBrace?_eq`, `Source.IsAtop.parameterCells?_eq` —
  the walks end in the upper text;
* `Source.IsAtop.declaration?_eq` — its lines declare what they declare alone;
* `declarationsFrom_append` — declarations of consecutive parts of a text;
* `Source.IsAtop.declarations_eq`, `Source.IsAtop.span_eq` — they come first, and span what they
  span alone.
-/

import ScriptOutline.Proofs.BracePairs
import ScriptOutline.Proofs.Closing
import ScriptOutline.Proofs.CodeCells
import ScriptOutline.Proofs.DeclarationParts
import ScriptOutline.Proofs.LowerRecords

set_option relaxedAutoImplicit false
set_option autoImplicit false

namespace ScriptOutline

/-! ### Closed texts -/

/-- The cells of a line that are not blanks. -/
def Line.ink (l : Line) : List Cell :=
  l.cells.filter fun c => !ScriptOutline.isBlank c.char

/-- A text that is closed off: its brackets close, and its last line is a closing brace. -/
structure Source.IsClosed (s : Source) : Prop where
  /-- Every opening brace of the code has its other end. -/
  braces : ∀ x ∈ s.spots, x.cell.isCodeChar '{' = true → (s.matchingBrace? x.position).isSome = true
  /-- A later closing bracket brings the count since each opening one back to zero. -/
  brackets : openersClose s.spots = true
  /-- The last line holds a closing brace of the code, and blanks besides. -/
  last : s.lines.getLast?.map Line.ink = some [⟨'}', .code⟩]

/-- A closed text above other lines, in which its braces pair as they did alone. -/
structure Source.IsAtop (below : List Line) (s t : Source) : Prop where
  closed : s.IsClosed
  read : ∀ n l, s.line? n = some l → l.IsRead
  paired : s.IsPaired
  lines : t.lines = s.lines ++ below
  braces : ∀ p, ⟨p, ⟨'{', .code⟩⟩ ∈ s.spots → t.matchingBrace? p = s.matchingBrace? p

/-! ### The last line -/

namespace Line

variable {l : Line} (h : l.ink = [⟨'}', .code⟩])

include h

theorem eq_brace_of_mem {c : Cell} (hc : c ∈ l.cells) (hblank : ScriptOutline.isBlank c.char = false) :
    c = ⟨'}', .code⟩ := by
  have hmem : c ∈ l.ink := List.mem_filter.2 ⟨hc, by simp [hblank]⟩
  rw [h] at hmem
  exact List.mem_singleton.1 hmem

/-- The first code of the last line is its brace. -/
theorem firstCode?_brace : ∃ first rest, l.firstCode? = some first ∧
    l.cells[first]? = some ⟨'}', .code⟩ ∧ l.codeText.drop first = '}' :: rest := by
  cases hfirst : l.firstCode? with
  | none =>
      have hmem : (⟨'}', .code⟩ : Cell) ∈ l.ink := by simp [h]
      have hnot := List.findIdx?_eq_none_iff.1 hfirst _ (List.mem_filter.1 hmem).1
      exact absurd hnot (by decide)
  | some first =>
      obtain ⟨c, hc, htoken⟩ := isToken_of_firstCode? hfirst
      simp only [isToken, Bool.and_eq_true, Bool.not_eq_true'] at htoken
      have hbrace := eq_brace_of_mem h (List.mem_of_getElem? hc) htoken.2
      rw [hbrace] at hc
      obtain ⟨hlt, hget⟩ := List.getElem?_eq_some_iff.1 hc
      refine ⟨first, (l.cells.drop (first + 1)).map Cell.visible, rfl, hc, ?_⟩
      rw [codeText, ← List.map_drop, List.drop_eq_getElem_cons hlt, hget]
      rfl

end Line

/-- A line that starts with a closing brace declares no class. -/
theorem classHeader?_brace (rest : List Char) : classHeader? ('}' :: rest) = none := rfl

/-- The characters that a header leads to are live code. -/
theorem Line.code_of_firstCode? {l : Line} (hl : l.IsRead) {first : Nat}
    (hfirst : l.firstCode? = some first) {before rest : List Char} {char : Char}
    (htext : l.codeText.drop first = before ++ char :: rest) (hplain : Plain before)
    (hquote : isQuoteMark char = false) (hchar : char ≠ ' ') :
    l.cells[l.length - rest.length - 1]? = some ⟨char, .code⟩ := by
  obtain ⟨c, hc, htoken⟩ := isToken_of_firstCode? hfirst
  simp only [isToken, Bool.and_eq_true, Cell.isCode, decide_eq_true_eq] at htoken
  rw [← column_eq_of_drop htext]
  exact code_of_plain hl hc htoken.1 htext hplain hquote hchar

/-! ### The end of a text -/

/-- The spots of a line and of those below it end with a line break. -/
theorem Line.spotsFrom_append_eq_break (l : Line) (n column m : Nat) (lines : List Line) :
    ∃ xs brk, l.spotsFrom n column ++ spotsOfLines m lines = xs ++ [brk] ∧ brk.isBreak = true := by
  induction lines generalizing l n column m with
  | nil =>
      refine ⟨spotsOfCells n column (l.cells.drop column), l.breakSpot n, ?_, rfl⟩
      rw [spotsOfLines, List.append_nil, spotsFrom_eq]
  | cons l' rest ih =>
      obtain ⟨xs, brk, hspots, hbreak⟩ := ih l' m 0 (m + 1)
      exact ⟨l.spotsFrom n column ++ xs, brk, by rw [spotsOfLines, hspots, List.append_assoc], hbreak⟩

/-- What follows a position ends with a line break. -/
theorem Source.spotsFrom_eq_append_break {s : Source} {p : Position} (h : s.Reaches p) :
    ∃ xs brk, s.spotsFrom p = xs ++ [brk] ∧ brk.isBreak = true := by
  obtain ⟨l, hl, -⟩ := h
  rw [spotsFrom_eq hl]
  exact l.spotsFrom_append_eq_break ..

theorem firstBrace?_append (n : Nat) {lines : List Line} (more : List Line)
    (h : ∃ l ∈ lines, l.firstCode?.isSome = true) :
    firstBrace? n (lines ++ more) = firstBrace? n lines := by
  induction lines generalizing n with
  | nil => simp at h
  | cons l rest ih =>
      simp only [List.cons_append, firstBrace?]
      cases hfirst : l.firstCode? with
      | some column => rfl
      | none =>
          obtain ⟨l', hl', hsome⟩ := h
          rcases List.mem_cons.1 hl' with rfl | hl'
          · rw [hfirst] at hsome
            exact Bool.noConfusion hsome
          · exact ih (n + 1) ⟨l', hl', hsome⟩

/-- An expression ends before the text does. -/
theorem arrowStop_le {s : Source} {p : Position} (h : s.Reaches p) :
    arrowStop s.endPosition 0 none (s.spotsFrom p) ≤ s.endPosition.next := by
  have hle := @ArrowState.run_le ⟨0, none⟩ (s.spotsFrom p) s.endPosition.next (by simp) (by
    intro x hx
    rw [Position.lt_next_iff]
    exact Source.le_endPosition (Source.reaches_of_mem_spots ((Source.mem_spotsFrom_iff h).1 hx).1))
  rw [arrowStop_eq_run]
  cases hrun : ArrowState.run ⟨0, none⟩ (s.spotsFrom p) with
  | error stop =>
      rw [hrun] at hle
      exact hle
  | ok state =>
      rw [hrun] at hle
      obtain ⟨depth, last⟩ := state
      cases last with
      | none => exact le_of_lt s.endPosition.lt_next
      | some l => exact hle l rfl

/-! ### Consecutive parts -/

/-- The last line of a header is a line of the text. -/
theorem headerLine_lt {s : Source} {n : Nat} {d : Declaration} (hd : declaration? s n = some d) :
    d.headerLine < s.lineCount := by
  obtain ⟨hplaced, -⟩ := declaration?_placed hd
  rw [← hplaced.bodyStart_line]
  rcases hplaced.body_isAt with ⟨hp, -⟩ | ⟨hp, -⟩
  · exact (Source.reaches_of_mem_spots hp).line_lt
  · exact hp.line_lt

/-- The declarations of consecutive parts of a text, of which the first reads as it does alone. -/
theorem declarationsFrom_append {s t : Source} {n skip : Nat} {xs : List Line}
    (hskip : skip ≤ xs.length)
    (heq : ∀ m, m < n + xs.length → declaration? t m = declaration? s m)
    (hheader : ∀ m d, declaration? s m = some d → d.headerLine < n + xs.length)
    (ys : List Line) :
    declarationsFrom t n skip (xs ++ ys) =
      declarationsFrom s n skip xs ++ declarationsFrom t (n + xs.length) 0 ys := by
  induction xs generalizing n skip with
  | nil =>
      rw [Nat.le_zero.1 hskip]
      rfl
  | cons l rest ih =>
      have hlength : n + (l :: rest).length = n + 1 + rest.length := by
        rw [List.length_cons]
        omega
      rw [hlength] at heq hheader ⊢
      simp only [List.cons_append, declarationsFrom]
      split
      · next hpos =>
          simp only [List.length_cons] at hskip
          exact ih (by omega) heq hheader
      · rw [heq n (by omega)]
        cases hd : declaration? s n with
        | none => exact ih (Nat.zero_le _) heq hheader
        | some d =>
            have hlt := hheader n d hd
            simp only [List.cons_append]
            rw [ih (by omega) heq hheader]

/-! ### Bodies -/

/-- The body that starts at the same place in another text. -/
def Body.reread (t : Source) : Body → Body
  | .block opening _ => blockAt t opening
  | .arrow start _ => arrowAt t start

/-- Where a body starts depends on the lines below only by their first brace. -/
theorem bodyFrom?_reread {s t : Source} {line : Line} {n : Nat} {cells : List Cell}
    (hnext : nextBrace? t n = nextBrace? s n) :
    bodyFrom? t line n cells =
      (bodyFrom? s line n cells).map fun (b, m) => (b.reread t, m) := by
  have hbelow : (nextBrace? t n).map (fun o => (blockAt t o, o.line)) =
      ((nextBrace? s n).map fun o => (blockAt s o, o.line)).map fun (b, m) =>
        (b.reread t, m) := by
    rw [hnext, Option.map_map]
    rfl
  cases cells with
  | nil => exact hbelow
  | cons c rest =>
      simp only [bodyFrom?]
      split
      · exact hbelow
      · split
        · rfl
        · split <;> rfl

/-- An expression starts on the line that its arrow is on. -/
theorem line_of_bodyFrom?_arrow {s : Source} {line : Line} {n m : Nat} {cells : List Cell}
    {start stop : Position} (h : bodyFrom? s line n cells = some (.arrow start stop, m)) :
    start.line = n := by
  have hbelow : (nextBrace? s n).map (fun o => (blockAt s o, o.line)) ≠
      some (.arrow start stop, m) := by
    cases nextBrace? s n <;> simp [blockAt]
  cases cells with
  | nil => exact absurd h hbelow
  | cons c rest =>
      simp only [bodyFrom?] at h
      split at h
      · exact absurd h hbelow
      · split at h
        · simp [blockAt] at h
        · split at h
          · simp only [arrowAt, Option.some.injEq, Prod.mk.injEq, Body.arrow.injEq] at h
            rw [← h.1.1]
          · simp at h

namespace Source.IsAtop

variable {below : List Line} {s t : Source} (h : s.IsAtop below t)

include h

/-- The last line, which is a closing brace. -/
theorem exists_last : ∃ l, s.line? (s.lineCount - 1) = some l ∧ l.ink = [⟨'}', .code⟩] := by
  obtain ⟨l, hl, hink⟩ := Option.map_eq_some_iff.1 h.closed.last
  rw [List.getLast?_eq_getElem?] at hl
  exact ⟨l, hl, hink⟩

theorem lineCount_pos : 0 < s.lineCount := by
  obtain ⟨l, hl, -⟩ := h.exists_last
  exact Nat.zero_lt_of_lt (line_lt_of_line? hl)

/-- A line that has one of these cells on it is not the last one. -/
theorem line_lt_of_cell {p : Position} {c : Cell} (hmem : ⟨p, c⟩ ∈ s.spots)
    (hblank : ScriptOutline.isBlank c.char = false) (hc : c ≠ ⟨'}', .code⟩) :
    p.line + 1 < s.lineCount := by
  obtain ⟨l, hl, hcell⟩ := mem_spots_iff.1 hmem
  simp only at hl hcell
  have hlt : p.line < s.lineCount := line_lt_of_line? hl
  rcases Nat.lt_or_ge (p.line + 1) s.lineCount with hlast | hlast
  · exact hlast
  · obtain ⟨l', hl', hink⟩ := h.exists_last
    rw [show s.lineCount - 1 = p.line by omega, hl, Option.some.injEq] at hl'
    subst hl'
    rcases hcell with hcell | hbreak
    · exact absurd (Line.eq_brace_of_mem hink (List.mem_of_getElem? hcell) hblank) hc
    · simp only [Line.breakSpot, Spot.mk.injEq] at hbreak
      have hnewline : ScriptOutline.isBlank '\n' = true := by decide
      rw [hbreak.2, hnewline] at hblank
      exact Bool.noConfusion hblank

theorem line?_eq {n : Nat} (hn : n < s.lineCount) : t.line? n = s.line? n := by
  rw [line?, line?, h.lines, List.getElem?_append_left hn]

theorem drop_lines {n : Nat} (hn : n ≤ s.lineCount) :
    t.lines.drop n = s.lines.drop n ++ below := by
  rw [h.lines, List.drop_append_of_le_length hn]

theorem spotsFrom_eq_append {p : Position} (hp : p.line < s.lineCount) :
    t.spotsFrom p = s.spotsFrom p ++ spotsOfLines s.lineCount below := by
  have hl : s.line? p.line = some s.lines[p.line] := List.getElem?_eq_getElem hp
  have hl' : t.line? p.line = some s.lines[p.line] := by rw [h.line?_eq hp, hl]
  rw [spotsFrom_eq hl, spotsFrom_eq hl', h.drop_lines hp, spotsOfLines_append, List.length_drop,
    List.append_assoc]
  congr 3
  simp only [lineCount] at hp ⊢
  omega

/-! ### Walks end above -/

theorem openersClose_spotsFrom {p : Position} (hp : s.Reaches p) :
    openersClose (s.spotsFrom p) = true := by
  obtain ⟨before, hspots, -, -⟩ := spots_eq_append hp
  exact openersClose_of_suffix ⟨before, hspots.symm⟩ h.closed.brackets

/-- The brace of the last line stands behind every position above it. -/
theorem exists_brace {p : Position} (hp : s.Reaches p) (hline : p.line + 1 < s.lineCount) :
    ∃ q, ⟨q, ⟨'}', .code⟩⟩ ∈ s.spotsFrom p := by
  obtain ⟨l, hl, hink⟩ := h.exists_last
  obtain ⟨first, -, -, hcell, -⟩ := Line.firstCode?_brace hink
  refine ⟨⟨s.lineCount - 1, first⟩, (mem_spotsFrom_iff hp).2 ⟨mem_spots_of_cell hl hcell, ?_⟩⟩
  exact le_of_lt (Position.lt_of_line_lt (by simp only; omega))

/-- An expression that starts above the last line ends in the upper text. -/
theorem arrowAt_eq {p : Position} (hp : s.Reaches p) (hline : p.line + 1 < s.lineCount) :
    arrowAt t p = arrowAt s p := by
  obtain ⟨xs, brk, hspots, hbreak⟩ := spotsFrom_eq_append_break hp
  obtain ⟨q, hq⟩ := h.exists_brace hp hline
  have hclose := h.openersClose_spotsFrom hp
  rw [hspots] at hclose hq
  have hmem : (⟨q, ⟨'}', .code⟩⟩ : Spot) ∈ xs := by
    rcases List.mem_append.1 hq with hq | hq
    · exact hq
    · rw [← List.mem_singleton.1 hq] at hbreak
      exact absurd hbreak (by simp [Spot.isBreak])
  obtain ⟨stop, hrun⟩ := ArrowState.run_eq_error hclose hmem rfl hbreak
  have hlt : p.line < s.lineCount := by omega
  simp only [arrowAt, arrowStop_eq_run, h.spotsFrom_eq_append hlt, hspots]
  rw [ArrowState.run_append _ (xs ++ [brk]), hrun]
  rfl

theorem blockAt_eq {p : Position} (hp : ⟨p, ⟨'{', .code⟩⟩ ∈ s.spots) :
    blockAt t p = blockAt s p := by
  rw [blockAt, blockAt, h.braces p hp]

/-- The opening brace below a line stands in the upper text. -/
theorem nextBrace?_eq {n : Nat} (hn : n + 1 < s.lineCount) : nextBrace? t n = nextBrace? s n := by
  obtain ⟨l, hl, hink⟩ := h.exists_last
  obtain ⟨first, -, hfirst, -, -⟩ := Line.firstCode?_brace hink
  rw [nextBrace?, nextBrace?, h.drop_lines (Nat.le_of_lt hn)]
  refine firstBrace?_append (n + 1) below ⟨l, ?_, by rw [hfirst]; rfl⟩
  refine List.mem_of_getElem? (i := s.lineCount - 1 - (n + 1)) ?_
  rw [List.getElem?_drop, show n + 1 + (s.lineCount - 1 - (n + 1)) = s.lineCount - 1 by omega]
  exact hl

theorem reread_eq {b : Body} (hb : b.IsAt s)
    (harrow : ∀ start stop, b = .arrow start stop → start.line + 1 < s.lineCount) :
    b.reread t = b := by
  rcases hb with ⟨hp, hb⟩ | ⟨hp, hb⟩
  · rw [hb]
    exact h.blockAt_eq hp
  · have hline := harrow _ _ hb
    rw [hb]
    exact h.arrowAt_eq hp hline

/-- What follows a list of parameters is found in the upper text. -/
theorem tail?_eq {p : Position} (hline : p.line + 1 < s.lineCount) : tail? t p = tail? s p := by
  have hlt : p.line < s.lineCount := by omega
  simp only [tail?, Option.bind_eq_bind, h.line?_eq hlt]
  cases hl : s.line? p.line with
  | none => rfl
  | some line =>
      simp only [Option.bind_some]
      cases htype : readReturnType? (dropBlankCode (line.cells.drop (p.column + 1))) with
      | none => rfl
      | some typed =>
          obtain ⟨type, cells⟩ := typed
          simp only [Option.bind_some, bodyFrom?_reread (h.nextBrace?_eq hline)]
          cases hbody : bodyFrom? s line p.line cells with
          | none => rfl
          | some found =>
              obtain ⟨b, m⟩ := found
              have hsuffix : cells <:+ line.cells :=
                ((readReturnType?_suffix htype).trans (dropBlankCode_suffix _)).trans
                  (List.drop_suffix _ _)
              obtain ⟨hat, -, -⟩ := bodyFrom?_spec hl hsuffix hbody
              have hreread : b.reread t = b := by
                refine h.reread_eq hat ?_
                rintro start stop rfl
                rw [line_of_bodyFrom?_arrow hbody]
                exact hline
              simp only [Option.map_some, Option.bind_some, hreread]

/-- A list of parameters is read in the upper text. -/
theorem parameterCells?_eq {p : Position} (hp : ⟨p, ⟨'(', .code⟩⟩ ∈ s.spots) :
    parameterCells? t p = parameterCells? s p := by
  obtain ⟨l, hl, hcell⟩ := cell_of_code_mem hp (by decide)
  obtain ⟨before, after, hspots⟩ := List.append_of_mem hp
  have hnext : s.Reaches p.next := reaches_next_of_cell hl hcell
  have hfrom : s.spotsFrom p.next = after := spotsFrom_next hnext hspots
  -- the parenthesis closes in what follows it, before the text ends
  have hclose : closesFrom 1 after = true := by
    have hbrackets := h.closed.brackets
    rw [hspots] at hbrackets
    exact closesFrom_of_openersClose hbrackets rfl
  rw [parameterCells?, parameterCells?, h.spotsFrom_eq_append hnext.line_lt, hfrom,
    cellsToClose?_append hclose]

/-- A line of the upper text declares what it declares alone. -/
theorem declaration?_eq {n : Nat} (hn : n < s.lineCount) : declaration? t n = declaration? s n := by
  simp only [declaration?, h.line?_eq hn, Option.bind_eq_bind]
  cases hl : s.line? n with
  | none => simp only [Option.bind_none]
  | some l =>
      simp only [Option.bind_some]
      cases hfirst : l.firstCode? with
      | none => simp only [Option.bind_none]
      | some first =>
          simp only [Option.bind_some]
          cases hheader : Header.read? (l.codeText.drop first) with
          | none => simp only [Option.bind_none]
          | some header =>
              simp only [Option.bind_some]
              split
              · rfl
              · -- the parenthesis is live code, so its list of parameters ends above
                obtain ⟨before, htext, hplain⟩ := Header.read?_spec hheader
                have hopen := Line.code_of_firstCode? (h.read n l hl) hfirst htext hplain
                  (by decide) (by decide)
                rw [h.parameterCells?_eq (mem_spots_of_cell hl hopen)]
                cases hcells :
                    parameterCells? s ⟨n, l.length - header.rest.length - 1⟩ with
                | none => simp only [Option.bind_none]
                | some found =>
                    obtain ⟨cells, closing⟩ := found
                    have hreaches : s.Reaches
                        (Position.next ⟨n, l.length - header.rest.length - 1⟩) :=
                      reaches_next_of_cell hl hopen
                    obtain ⟨-, hclosing⟩ := parameterCells?_spec hreaches hcells
                    have hline := h.line_lt_of_cell hclosing (by decide) (by decide)
                    simp only [Option.bind_some, h.tail?_eq hline]

/-! ### What declarations span -/

theorem declarations_eq :
    declarations t = declarations s ++ declarationsFrom t s.lineCount 0 below := by
  rw [declarations, h.lines]
  have happend := @declarationsFrom_append s t 0 0 s.lines (Nat.zero_le _)
    (fun m hm => h.declaration?_eq (by simpa [lineCount] using hm))
    (fun m d hd => by simpa [lineCount] using headerLine_lt hd) below
  rw [Nat.zero_add] at happend
  exact happend

/-- A block of the upper text closes in it. -/
theorem exists_closing {p : Position} (hp : ⟨p, ⟨'{', .code⟩⟩ ∈ s.spots) :
    ∃ c, s.matchingBrace? p = some c ∧ c.line < s.lineCount := by
  obtain ⟨c, hc⟩ := Option.isSome_iff_exists.1 (h.closed.braces _ hp (Cell.isCodeChar_iff.2 rfl))
  refine ⟨c, hc, ?_⟩
  have hpair := mem_of_matchingBrace? h.paired hc
  exact (reaches_of_mem_spots (mem_pairBraces hpair).2).line_lt

/-- A declaration of the upper text spans what it spans alone, and nothing below. -/
theorem span_eq {d : Declaration} (hd : d ∈ declarations s) :
    d.span t = d.span s ∧ d.bodySpan t = d.bodySpan s ∧ (d.span s).IsAbove s.lineCount ∧
      (d.bodySpan s).IsAbove s.lineCount := by
  have hplaced := declarations_placed hd
  obtain ⟨c, hstart, -⟩ := hplaced.start_token
  have hline : d.start.line < s.lineCount := (reaches_of_mem_spots hstart).line_lt
  rcases hplaced.body_isAt with ⟨hp, hb⟩ | ⟨hp, hb⟩
  · obtain ⟨closing, hclosing, hlt⟩ := h.exists_closing hp
    have hopening : d.body.start.line < s.lineCount := (reaches_of_mem_spots hp).line_lt
    rw [blockAt, hclosing] at hb
    generalize d.body.start = p at hb hopening
    simp only [Declaration.span, Declaration.bodySpan, Declaration.stop, hb, Option.getD_some,
      true_and]
    exact ⟨⟨hline, hlt⟩, hopening, hlt⟩
  · -- an expression may run to the end of the text, which is on its last line
    have hle := Position.line_le_of_le (arrowStop_le hp)
    have harrow : d.body.start.line < s.lineCount := hp.line_lt
    have hpos := h.lineCount_pos
    have hstop : (arrowStop s.endPosition 0 none (s.spotsFrom d.body.start)).line < s.lineCount := by
      simp only [Position.next, endPosition] at hle ⊢
      omega
    rw [arrowAt] at hb
    generalize d.body.start = p at hb harrow hstop
    simp only [Declaration.span, Declaration.bodySpan, Declaration.stop, hb, true_and]
    exact ⟨⟨hline, hstop⟩, harrow, hstop⟩

end Source.IsAtop

end ScriptOutline
