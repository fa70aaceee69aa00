/-
**Where string literals end.**

A reader holds a mode before every character of a line.  A literal of a text opens where this mode
is that of code, and closes where it is that of code again, with nothing but the modes of one quote
in between.  The character that an escape takes into the literal is passed over by its own mode, so
that a quote behind an escape ends nothing.

Main definitions:

* `Mode.modesFrom`, `modesOfLine` — the modes along a line;
* `Mode.IsWithin` — the modes inside of a literal;
* `IsLiteral` — two columns of a line are the two quotes of one literal.

Main results:

* `line?_scan` — the lines of a scanned text are read in the modes that the lines above leave;
* `IsLiteral.exists_cells` — the cells of a literal;
* `IsLiteral.closing_lt` — a literal does not reach behind its line.
-/

import ScriptOutline.Proofs.Concatenation

set_option relaxedAutoImplicit false
set_option autoImplicit false

namespace ScriptOutline

/-! ### Modes along a line -/

namespace Mode

/-- The modes along the rest of a line: before each of its characters, and at its end. -/
def modesFrom (mode : Mode) (fresh : Bool) : List Char → List Mode
  | [] => [mode]
  | c :: rest => mode :: (mode.step fresh c rest.head?).2.modesFrom (isBlank c) rest

/-- The modes inside of a literal. -/
def IsWithin (quote : Quote) (mode : Mode) : Prop :=
  mode = .literal quote ∨ mode = .escaped quote

variable {quote : Quote} {mode : Mode} {fresh : Bool} {c : Char} {ahead : Option Char}

theorem IsWithin.ne_code (h : mode.IsWithin quote) : mode ≠ .code := by
  rintro rfl
  rcases h with h | h
  · exact Mode.noConfusion h
  · exact Mode.noConfusion h

theorem length_modesFrom (mode : Mode) (fresh : Bool) (line : List Char) :
    (mode.modesFrom fresh line).length = line.length + 1 := by
  induction line generalizing mode fresh with
  | nil => rfl
  | cons c rest ih => simp [modesFrom, ih]

theorem exists_modesFrom (mode : Mode) (fresh : Bool) (line : List Char) :
    ∃ rest, mode.modesFrom fresh line = mode :: rest := by
  cases line with
  | nil => exact ⟨[], rfl⟩
  | cons c line => exact ⟨_, rfl⟩

theorem modesFrom_ne_nil (mode : Mode) (fresh : Bool) (line : List Char) :
    mode.modesFrom fresh line ≠ [] := by
  obtain ⟨rest, h⟩ := exists_modesFrom mode fresh line
  simp [h]

/-- A character inside of a literal belongs to it, and only its own quote closes it. -/
theorem step_within (h : mode.IsWithin quote) :
    (mode.step fresh c ahead).1 = .literal quote ∧
      ((mode.step fresh c ahead).2 = .code → c = quote.char) := by
  rcases h with rfl | rfl
  · simp only [step]
    split
    · exact ⟨rfl, fun h => Mode.noConfusion h⟩
    · split
      · next hc => exact ⟨rfl, fun _ => hc⟩
      · exact ⟨rfl, fun h => Mode.noConfusion h⟩
  · exact ⟨rfl, fun h => Mode.noConfusion h⟩

/-- A literal is opened by its own quote. -/
theorem step_code_within (h : (Mode.code.step fresh c ahead).2.IsWithin quote) :
    c = quote.char ∧ (Mode.code.step fresh c ahead).1 = .literal quote := by
  simp only [step, IsWithin] at h ⊢
  split at h
  · simp at h
  · split at h
    · simp at h
    · split at h
      · next hc =>
          simp only [literal.injEq, reduceCtorEq, or_false] at h
          subst h
          exact ⟨hc, by simp [hc]⟩
      · split at h
        · next hc =>
            simp only [literal.injEq, reduceCtorEq, or_false] at h
            subst h
            exact ⟨hc, by simp [hc]⟩
        · simp at h

/-- What is read from a column on depends only on the mode there. -/
theorem exists_readFrom {before rest : List Mode} {last : Mode} {line : List Char}
    (h : mode.modesFrom fresh line = before ++ last :: rest) :
    ∃ behind fresh' cells, cells.length = before.length ∧
      last.modesFrom fresh' behind = last :: rest ∧
      (mode.readFrom fresh line).1 = cells ++ (last.readFrom fresh' behind).1 := by
  induction before generalizing mode fresh line with
  | nil =>
      obtain ⟨modes, hmodes⟩ := exists_modesFrom mode fresh line
      obtain ⟨rfl, rfl⟩ : mode = last ∧ modes = rest := by simpa [hmodes] using h
      exact ⟨line, fresh, [], rfl, hmodes, rfl⟩
  | cons first before ih =>
      cases line with
      | nil => simp [modesFrom] at h
      | cons c line =>
          simp only [modesFrom, List.cons_append, List.cons.injEq] at h
          obtain ⟨behind, fresh', cells, hlength, hmodes, hcells⟩ := ih h.2
          exact ⟨behind, fresh', ⟨c, (mode.step fresh c line.head?).1⟩ :: cells, by simp [hlength],
            hmodes, by simp [readFrom, hcells]⟩

/-- What is read inside of a literal up to its end are characters of it, and then its quote. -/
theorem exists_cells_within {inside after : List Mode} {line : List Char}
    (h : mode.modesFrom fresh line = inside ++ .code :: after) (hne : inside ≠ [])
    (hinside : ∀ m ∈ inside, m.IsWithin quote) :
    ∃ cells rest, (mode.readFrom fresh line).1 = cells ++ ⟨quote.char, .literal quote⟩ :: rest ∧
      cells.length + 1 = inside.length ∧ ∀ c ∈ cells, c.region = .literal quote := by
  induction inside generalizing mode fresh line with
  | nil => exact absurd rfl hne
  | cons first inside ih =>
      cases line with
      | nil => simp [modesFrom] at h
      | cons c line =>
          simp only [modesFrom, List.cons_append, List.cons.injEq] at h
          obtain ⟨rfl, h⟩ := h
          obtain ⟨hwithin, hinside⟩ := List.forall_mem_cons.1 hinside
          obtain ⟨hregion, hquote⟩ := @step_within quote mode fresh c line.head? hwithin
          cases inside with
          | nil =>
              obtain ⟨modes, hmodes⟩ :=
                exists_modesFrom (mode.step fresh c line.head?).2 (isBlank c) line
              rw [hmodes, List.nil_append, List.cons.injEq] at h
              obtain rfl := hquote h.1
              refine ⟨[], ((mode.step fresh quote.char line.head?).2.readFrom
                (isBlank quote.char) line).1, ?_, rfl, by simp⟩
              simp only [readFrom, hregion, List.nil_append]
          | cons second inside =>
              obtain ⟨cells, rest, hcells, hlength, hall⟩ := ih h (List.cons_ne_nil _ _) hinside
              exact ⟨⟨c, .literal quote⟩ :: cells, rest, by simp [readFrom, hregion, hcells],
                by simp [hlength], List.forall_mem_cons.2 ⟨rfl, hall⟩⟩

end Mode

/-! ### Literals of a text -/

/-- The modes along a line of a text: before each of its characters, and at its end. -/
def modesOfLine (text : List Char) (n : Nat) : List Mode :=
  match (linesOf text)[n]? with
  | none => []
  | some line => (modeAfter .code ((linesOf text).take n)).modesFrom true line

/--
The two columns of a line are the quotes of one literal: the reader comes to the first of them in
code, is inside of the literal from there on, and is back in code right behind the second.
-/
def IsLiteral (text : List Char) (n opening closing : Nat) : Prop :=
  ∃ quote before inside after,
    modesOfLine text n = before ++ .code :: (inside ++ .code :: after) ∧ before.length = opening ∧
      opening + inside.length = closing ∧ inside ≠ [] ∧ ∀ m ∈ inside, Mode.IsWithin quote m

/-- The lines of a scanned text are read in the modes that the lines above leave. -/
theorem line?_scan {text line : List Char} {n : Nat} (h : (linesOf text)[n]? = some line) :
    ∃ l, (Source.scan text).line? n = some l ∧
      l.cells = ((modeAfter .code ((linesOf text).take n)).read line).1 := by
  obtain ⟨hlt, rfl⟩ := List.getElem?_eq_some_iff.1 h
  have hsplit : linesOf text =
      (linesOf text).take n ++ (linesOf text)[n] :: (linesOf text).drop (n + 1) := by
    simp
  have hlines : (Source.scan text).lines = readLines .code 0 (linesOf text) := rfl
  rw [hsplit, readLines_append] at hlines
  have hlength : (readLines .code 0 ((linesOf text).take n)).length = n := by
    rw [readLines_length, List.length_take]
    omega
  refine ⟨⟨_, depthAfterLines .code 0 ((linesOf text).take n)⟩, ?_, rfl⟩
  rw [Source.line?, hlines, List.getElem?_append_right (by omega), hlength, Nat.sub_self]
  rfl

namespace IsLiteral

variable {text : List Char} {n opening closing : Nat}

/-- A literal is its quote, characters of it, and its quote again. -/
theorem exists_cells (h : IsLiteral text n opening closing) {l : Line}
    (hl : (Source.scan text).line? n = some l) :
    ∃ quote before inside after,
      l.cells = before ++ ⟨quote.char, .literal quote⟩ ::
        (inside ++ ⟨quote.char, .literal quote⟩ :: after) ∧
      before.length = opening ∧ opening + inside.length + 1 = closing ∧
      ∀ c ∈ inside, c.region = .literal quote := by
  obtain ⟨quote, before, inside, after, hmodes, hopening, hclosing, hne, hinside⟩ := h
  unfold modesOfLine at hmodes
  cases hline : (linesOf text)[n]? with
  | none => simp [hline] at hmodes
  | some line =>
      simp only [hline] at hmodes
      obtain ⟨l', hl', hcells⟩ := line?_scan hline
      obtain rfl : l' = l := Option.some.inj (hl'.symm.trans hl)
      obtain ⟨behind, fresh, cells, hlength, hfrom, hread⟩ := Mode.exists_readFrom hmodes
      cases behind with
      | nil =>
          have hmodesLength := congrArg List.length hfrom
          simp [Mode.modesFrom] at hmodesLength
      | cons c behind =>
          simp only [Mode.modesFrom, List.cons.injEq, true_and] at hfrom
          obtain ⟨hquote, hregion⟩ : c = quote.char ∧
              (Mode.code.step fresh c behind.head?).1 = .literal quote := by
            obtain ⟨first, inside, rfl⟩ := List.exists_cons_of_ne_nil hne
            obtain ⟨modes, hhead⟩ :=
              Mode.exists_modesFrom (Mode.code.step fresh c behind.head?).2 (isBlank c) behind
            rw [hhead, List.cons_append, List.cons.injEq] at hfrom
            refine Mode.step_code_within ?_
            rw [hfrom.1]
            exact hinside first List.mem_cons_self
          obtain ⟨body, rest, hbody, hbodyLength, hall⟩ :=
            Mode.exists_cells_within hfrom hne hinside
          refine ⟨quote, cells, body, rest, ?_, by omega, by omega, hall⟩
          rw [hcells, Mode.read, hread]
          simp only [Mode.readFrom, hbody, hregion, ← hquote]

/-- The two quotes of a literal stand on its line. -/
theorem closing_lt (h : IsLiteral text n opening closing) {line : List Char}
    (hline : (linesOf text)[n]? = some line) : opening < closing ∧ closing < line.length := by
  obtain ⟨quote, before, inside, after, hmodes, hopening, hclosing, hne, -⟩ := h
  have hlength := congrArg List.length hmodes
  simp only [modesOfLine, hline, Mode.length_modesFrom, List.length_append, List.length_cons]
    at hlength
  have hpos := List.length_pos_iff.2 hne
  omega

end IsLiteral

end ScriptOutline
