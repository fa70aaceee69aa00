/-
**Which characters of a header are live code.**

Headers are read off the text of a line in which comments are blanked out but literals are shown.
A literal starts with its quote, so that no character of a header, which has no quotes, is part of
one: the parenthesis of a declaration and the brace of a class are brackets of the code.

Main definitions:

* `Mode.IsOutside` — a mode outside of string literals;
* `Mode.IsCommentMark` — two characters that open or close a block comment;
* `Line.IsRead` — a line that was read from characters.

Main results:

* `Mode.readFrom_append` — what follows a text is read on its own;
* `Mode.not_literal_of_plain` — without a quote no literal starts;
* `Line.code_of_plain` — what stands behind plain text, and before it live code, is live code;
* `classHeader?_spec` — a class header is plain text before its brace;
* `Source.isRead_scan` — the lines of a scanned text were read from characters.
-/

import ScriptOutline.Proofs.Words
import ScriptOutline.Routine.ClassBlock

set_option relaxedAutoImplicit false
set_option autoImplicit false

namespace ScriptOutline

/-! ### Modes -/

namespace Mode

/-- A mode outside of string literals. -/
def IsOutside (mode : Mode) : Prop :=
  ∀ quote, mode ≠ .literal quote ∧ mode ≠ .escaped quote

theorem isOutside_code : IsOutside .code := by
  intro quote
  exact ⟨by simp, by simp⟩

theorem isOutside_lineComment : IsOutside .lineComment := by
  intro quote
  exact ⟨by simp, by simp⟩

theorem isOutside_blockComment : IsOutside .blockComment := by
  intro quote
  exact ⟨by simp, by simp⟩

theorem isOutside_opening : IsOutside .opening := by
  intro quote
  exact ⟨by simp, by simp⟩

theorem isOutside_closing : IsOutside .closing := by
  intro quote
  exact ⟨by simp, by simp⟩

/-- Only live code is read as such. -/
theorem eq_code_of_step {mode : Mode} {fresh : Bool} {c : Char} {ahead : Option Char}
    (h : (mode.step fresh c ahead).1 = .code) : mode = .code := by
  cases mode with
  | code => rfl
  | lineComment => simp [step] at h
  | blockComment =>
      simp only [step] at h
      split at h <;> simp at h
  | opening => simp [step] at h
  | closing => simp [step] at h
  | literal quote =>
      simp only [step] at h
      split at h
      · simp at h
      · split at h <;> simp at h
  | escaped quote => simp [step] at h

/-- Outside of literals a step stays outside, or is at a quote. -/
theorem step_outside {mode : Mode} (hmode : mode.IsOutside) (fresh : Bool) (c : Char)
    (ahead : Option Char) :
    ((∃ quote, (mode.step fresh c ahead).1 = .literal quote) ∧ isQuoteMark c = true) ∨
      ((∀ quote, (mode.step fresh c ahead).1 ≠ .literal quote) ∧
        (mode.step fresh c ahead).2.IsOutside) := by
  cases mode with
  | code =>
      simp only [step]
      split
      · exact Or.inr ⟨by simp, isOutside_lineComment⟩
      · split
        · exact Or.inr ⟨by simp, isOutside_opening⟩
        · split
          · next hc => exact Or.inl ⟨⟨.double, rfl⟩, by simp [isQuoteMark, hc]⟩
          · split
            · next hc => exact Or.inl ⟨⟨.single, rfl⟩, by simp [isQuoteMark, hc]⟩
            · exact Or.inr ⟨by simp, isOutside_code⟩
  | lineComment => exact Or.inr ⟨by simp [step], isOutside_lineComment⟩
  | blockComment =>
      simp only [step]
      split
      · exact Or.inr ⟨by simp, isOutside_closing⟩
      · exact Or.inr ⟨by simp, isOutside_blockComment⟩
  | opening => exact Or.inr ⟨by simp [step], isOutside_blockComment⟩
  | closing => exact Or.inr ⟨by simp [step], isOutside_code⟩
  | literal quote => exact absurd rfl (hmode quote).1
  | escaped quote => exact absurd rfl (hmode quote).2

/-- What is read from a column on is read in some mode. -/
theorem readFrom_drop (mode : Mode) (fresh : Bool) (line : List Char) (k : Nat) :
    ∃ mode' fresh', (mode.readFrom fresh line).1.drop k =
      (readFrom mode' fresh' (line.drop k)).1 := by
  induction k generalizing mode fresh line with
  | zero => exact ⟨mode, fresh, rfl⟩
  | succ k ih =>
      cases line with
      | nil => exact ⟨mode, fresh, rfl⟩
      | cons c rest =>
          simp only [readFrom, List.drop_succ_cons]
          exact ih _ _ rest

/-- Two characters are the mark that opens or closes a block comment. -/
def IsCommentMark (c d : Char) : Prop :=
  c = '/' ∧ d = '*' ∨ c = '*' ∧ d = '/'

/-- The character ahead counts only for a comment mark and inside of a literal. -/
theorem step_ahead {mode : Mode} {fresh : Bool} {c : Char} {ahead : Option Char}
    (hlast : ∀ quote, (mode.step fresh c none).2 ≠ .literal quote)
    (hmark : ∀ d ∈ ahead, ¬IsCommentMark c d) :
    mode.step fresh c ahead = mode.step fresh c none := by
  have hopen : ¬(c = '/' ∧ ahead = some '*') := fun h => hmark '*' h.2 (Or.inl ⟨h.1, rfl⟩)
  have hclose : ¬(c = '*' ∧ ahead = some '/') := fun h => hmark '/' h.2 (Or.inr ⟨h.1, rfl⟩)
  cases mode with
  | code => simp [step, hopen]
  | blockComment => simp [step, hclose]
  | literal quote =>
      -- An escape without a character behind it leaves the literal open.
      by_cases hc : c = escape
      · refine absurd ?_ (hlast quote)
        have hquote : escape ≠ quote.char := by cases quote <;> decide
        simp [step, hc, hquote]
      · simp [step, hc]
  | lineComment => rfl
  | opening => rfl
  | closing => rfl
  | escaped quote => rfl

/-- Whether the character behind a text is the first of its line, or follows a blank. -/
def freshAfter (fresh : Bool) (xs : List Char) : Bool :=
  (xs.getLast?.map isBlank).getD fresh

/--
What follows a text that does not end in a literal is read on its own, unless a comment mark stands
on both sides of the seam.
-/
theorem readFrom_append {mode : Mode} {fresh : Bool} {xs ys : List Char}
    (hlast : ∀ quote, (mode.readFrom fresh xs).2 ≠ .literal quote)
    (hseam : ∀ c ∈ xs.getLast?, ∀ d ∈ ys.head?, ¬IsCommentMark c d) :
    mode.readFrom fresh (xs ++ ys) =
      ((mode.readFrom fresh xs).1 ++
          ((mode.readFrom fresh xs).2.readFrom (freshAfter fresh xs) ys).1,
        ((mode.readFrom fresh xs).2.readFrom (freshAfter fresh xs) ys).2) := by
  induction xs generalizing mode fresh with
  | nil => rfl
  | cons c rest ih =>
      have hfresh : freshAfter fresh (c :: rest) = freshAfter (isBlank c) rest := by
        cases rest with
        | nil => rfl
        | cons d rest => simp [freshAfter, List.getLast?_cons]
      have hstep : mode.step fresh c (rest ++ ys).head? = mode.step fresh c rest.head? := by
        cases rest with
        | nil => exact step_ahead hlast (hseam c rfl)
        | cons d rest => rfl
      have hrest := @ih (mode.step fresh c rest.head?).2 (isBlank c) hlast ?_
      · simp only [List.cons_append, readFrom, hstep, hrest, hfresh]
      · intro d hd
        refine hseam d ?_
        cases rest with
        | nil => simp at hd
        | cons e rest => simpa [List.getLast?_cons] using hd

/-- Without a quote no literal starts. -/
theorem not_literal_of_plain {mode : Mode} {fresh : Bool} {line : List Char}
    {before after : List Cell} {c : Cell} (hmode : mode.IsOutside)
    (hcells : (mode.readFrom fresh line).1 = before ++ c :: after)
    (hbefore : Plain (before.map Cell.visible)) (hc : isQuoteMark c.visible = false)
    (quote : Quote) : c.region ≠ .literal quote := by
  induction before generalizing mode fresh line with
  | nil =>
      cases line with
      | nil => simp [readFrom] at hcells
      | cons d rest =>
          simp only [readFrom, List.nil_append, List.cons.injEq] at hcells
          obtain ⟨hcell, -⟩ := hcells
          rcases step_outside hmode fresh d rest.head? with ⟨⟨quote', hstep⟩, hd⟩ | ⟨hstep, -⟩
          · rw [← hcell] at hc
            simp only [Cell.visible, Cell.isComment, hstep, Region.isComment,
              Bool.false_eq_true, if_false] at hc
            rw [hc] at hd
            exact Bool.noConfusion hd
          · rw [← hcell]
            exact hstep quote
  | cons x before ih =>
      cases line with
      | nil => simp [readFrom] at hcells
      | cons d rest =>
          simp only [readFrom, List.cons_append, List.cons.injEq] at hcells
          obtain ⟨hcell, hcells⟩ := hcells
          rcases step_outside hmode fresh d rest.head? with ⟨⟨quote', hstep⟩, hd⟩ | ⟨-, hnext⟩
          · have hx := hbefore x.visible List.mem_cons_self
            rw [← hcell] at hx
            simp only [Cell.visible, Cell.isComment, hstep, Region.isComment,
              Bool.false_eq_true, if_false] at hx
            rw [hx] at hd
            exact Bool.noConfusion hd
          · exact ih hnext hcells fun e he => hbefore e (List.mem_cons_of_mem _ he)

end Mode

/-! ### Lines -/

/-- A line that was read from characters. -/
def Line.IsRead (l : Line) : Prop :=
  ∃ (mode : Mode) (chars : List Char), l.cells = (mode.read chars).1

/-- What stands behind plain text, and before it live code, is live code. -/
theorem Line.code_of_plain {l : Line} (hl : l.IsRead) {first : Nat} {c : Cell}
    (hc : l.cells[first]? = some c) (hcode : c.region = .code) {before rest : List Char}
    {char : Char} (htext : l.codeText.drop first = before ++ char :: rest) (hplain : Plain before)
    (hquote : isQuoteMark char = false) (hchar : char ≠ ' ') :
    l.cells[first + before.length]? = some ⟨char, .code⟩ := by
  obtain ⟨mode, chars, hcells⟩ := hl
  obtain ⟨mode', fresh', hdrop⟩ := mode.readFrom_drop true chars first
  rw [← Mode.read, ← hcells] at hdrop
  -- the first of these cells is live code, and so is the mode before it
  have hmode : mode' = .code := by
    obtain ⟨hlt, hget⟩ := List.getElem?_eq_some_iff.1 hc
    rw [List.drop_eq_getElem_cons hlt, hget] at hdrop
    cases hchars : chars.drop first with
    | nil => simp [hchars, Mode.readFrom] at hdrop
    | cons d tail =>
        simp only [hchars, Mode.readFrom, List.cons.injEq] at hdrop
        rw [hdrop.1] at hcode
        exact Mode.eq_code_of_step hcode
  rw [codeText, ← List.map_drop] at htext
  obtain ⟨cellsBefore, cellsFrom, hsplit, hbefore, hfrom⟩ := List.map_eq_append_iff.1 htext
  obtain ⟨cell, after, rfl, hvisible, -⟩ := List.map_eq_cons_iff.1 hfrom
  rw [hsplit] at hdrop
  have hliteral := Mode.not_literal_of_plain (hmode ▸ Mode.isOutside_code) hdrop.symm
    (by rwa [hbefore]) (by rwa [hvisible])
  have hcell : cell = ⟨char, .code⟩ := by
    obtain ⟨d, region⟩ := cell
    cases region with
    | code =>
        simp only [Cell.visible, Cell.isComment, Region.isComment, Bool.false_eq_true,
          if_false] at hvisible
        rw [hvisible]
    | lineComment =>
        simp only [Cell.visible, Cell.isComment, Region.isComment, if_true] at hvisible
        exact absurd hvisible.symm hchar
    | blockComment =>
        simp only [Cell.visible, Cell.isComment, Region.isComment, if_true] at hvisible
        exact absurd hvisible.symm hchar
    | literal quote => exact absurd rfl (hliteral quote)
  have hlength : before.length = cellsBefore.length := by rw [← hbefore, List.length_map]
  rw [hlength, ← List.getElem?_drop, hsplit, List.getElem?_append_right (Nat.le_refl _),
    Nat.sub_self, List.getElem?_cons_zero, hcell]

theorem isRead_of_mem_readLines {mode : Mode} {depth : Nat} {lines : List (List Char)} {l : Line}
    (h : l ∈ readLines mode depth lines) : l.IsRead := by
  induction lines generalizing mode depth with
  | nil => simp [readLines] at h
  | cons line rest ih =>
      simp only [readLines] at h
      rcases List.mem_cons.1 h with rfl | h
      · exact ⟨mode, line, rfl⟩
      · exact ih h

/-- The lines of a scanned text were read from characters. -/
theorem Source.isRead_scan {text : List Char} {n : Nat} {l : Line}
    (h : (scan text).line? n = some l) : l.IsRead :=
  isRead_of_mem_readLines (List.mem_of_getElem? h)

/-! ### Class headers -/

/-- The base class that is taken off a text is plain. -/
theorem afterBase_spec (cs : List Char) : ∃ taken, cs = taken ++ afterBase cs ∧ Plain taken := by
  unfold afterBase
  split
  · next c rest hbase =>
      split
      · next hc =>
          obtain ⟨tail, hextends, hblanks⟩ := Option.bind_eq_some_iff.1 hbase
          obtain ⟨inner, hafter, hword⟩ := Option.bind_eq_some_iff.1 hextends
          obtain ⟨blanks, hcs, hblank⟩ := afterBlanks?_spec hafter
          obtain ⟨word, hinner, -, hletters⟩ := afterWord?_spec hword
          obtain ⟨blanks', htail, hblank'⟩ := afterBlanks?_spec hblanks
          have hextendsPlain : Plain "extends".toList := plain_of_all (by decide)
          have hbasePlain : Plain (c :: rest.takeWhile isBaseChar) := by
            refine plain_of_forall (p := isBaseChar) (by decide) (by decide) ?_
            intro d hd
            rcases List.mem_cons.1 hd with rfl | hd
            · exact hc
            · exact List.mem_takeWhile_imp hd
          refine ⟨blanks ++ (word ++ (blanks' ++ (c :: rest.takeWhile isBaseChar))), ?_,
            (plain_of_blanks hblank).append ((plain_of_word hextendsPlain hletters).append
              ((plain_of_blanks hblank').append hbasePlain))⟩
          rw [hcs, hinner, htail]
          simp only [List.append_assoc, List.cons_append, List.takeWhile_append_dropWhile]
      · exact ⟨[], rfl, plain_nil⟩
  · exact ⟨[], rfl, plain_nil⟩

/-- A class header is plain text before its brace. -/
theorem classHeader?_spec {cs : List Char} {name : String} {length : Nat}
    (h : classHeader? cs = some (name, some length)) :
    ∃ before rest, cs = before ++ '{' :: rest ∧ Plain before ∧ length = rest.length + 1 := by
  simp only [classHeader?, Option.bind_eq_bind, Option.bind_eq_some_iff] at h
  obtain ⟨inner, ⟨word, hword, hblanks⟩, ⟨className, after⟩, hname, h⟩ := h
  obtain ⟨taken, hcs, -, hletters⟩ := afterWord?_spec hword
  obtain ⟨blanks, hrest, hblank⟩ := afterBlanks?_spec hblanks
  obtain ⟨hinner, hidentifier, -⟩ := identifier?_spec hname
  obtain ⟨base, hafter, hbase⟩ := afterBase_spec after
  obtain ⟨blanks', hbrace, hblank'⟩ := trimStart_spec (afterBase after)
  split at h
  · simp at h
  · next c rest htrim =>
      split at h
      · next hc =>
          simp only [Bool.and_eq_true, decide_eq_true_eq] at hc
          simp only [Option.some.injEq, Prod.mk.injEq] at h
          have hclassPlain : Plain "class".toList := plain_of_all (by decide)
          refine ⟨taken ++ (blanks ++ (className ++ (base ++ blanks'))), rest, ?_,
            (plain_of_word hclassPlain hletters).append ((plain_of_blanks hblank).append
              ((plain_of_identifier hidentifier).append (hbase.append (plain_of_blanks hblank')))),
            h.2.symm⟩
          rw [hcs, hrest, hinner, hafter, hbrace, htrim, hc.1]
          simp only [List.append_assoc]
      · simp at h

end ScriptOutline
