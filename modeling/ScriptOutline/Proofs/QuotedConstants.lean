/-
**Quoted constants.**

Whether a default value is one string literal is decided on its text alone, by a pattern that knows
of quotes and escapes.  On a text that starts with a quote the pattern agrees with a scan of that
text: it is met just if the literal that opens with the first character closes with the last one.
Two literals side by side, an operation on literals and a literal that is never closed are not
constants.

Main definitions:

* `EndsLiteral` — modes that stay inside of a literal and leave it at their end;
* `escapedQuote` — a literal with its own quote in it, behind an escape.

Main results:

* `closesAtEnd_iff` — the pattern and the modes along a text;
* `ofText_quoted` — **a quoted text is a constant just if it is one literal**.
-/

import ScriptOutline.Parameter.Literal
import ScriptOutline.Proofs.LiteralEnds
import ScriptOutline.Proofs.ParameterLists

set_option relaxedAutoImplicit false
set_option autoImplicit false

namespace ScriptOutline

/-! ### The pattern -/

/-- Modes that stay inside of a literal and leave it at their end. -/
def EndsLiteral (quote : Quote) (modes : List Mode) : Prop :=
  ∃ inside, modes = inside ++ [.code] ∧ ∀ m ∈ inside, Mode.IsWithin quote m

section

variable {quote : Quote} {mode : Mode} {modes : List Mode}

theorem not_endsLiteral_nil : ¬EndsLiteral quote [] := by
  rintro ⟨inside, h, -⟩
  simp at h

theorem endsLiteral_cons (hmode : mode.IsWithin quote) :
    EndsLiteral quote (mode :: modes) ↔ EndsLiteral quote modes := by
  constructor
  · rintro ⟨inside, h, hinside⟩
    cases inside with
    | nil =>
        simp only [List.nil_append, List.cons.injEq] at h
        exact absurd h.1 hmode.ne_code
    | cons first inside =>
        simp only [List.cons_append, List.cons.injEq] at h
        exact ⟨inside, h.2, (List.forall_mem_cons.1 hinside).2⟩
  · rintro ⟨inside, rfl, hinside⟩
    exact ⟨mode :: inside, rfl, List.forall_mem_cons.2 ⟨hmode, hinside⟩⟩

theorem endsLiteral_code_cons : EndsLiteral quote (.code :: modes) ↔ modes = [] := by
  constructor
  · rintro ⟨inside, h, hinside⟩
    cases inside with
    | nil => exact (List.cons.inj h).2
    | cons first inside =>
        have hfirst := (List.cons.inj h).1
        exact absurd hfirst.symm (hinside first List.mem_cons_self).ne_code
  · rintro rfl
    exact ⟨[], rfl, by simp⟩

end

/-- The pattern is met just if the modes along the text leave the literal at its end. -/
theorem closesAtEnd_iff (quote : Quote) (fresh : Bool) {cs : List Char} (hbreak : '\n' ∉ cs) :
    closesAtEnd quote.char cs = true ↔
      EndsLiteral quote ((Mode.literal quote).modesFrom fresh cs) := by
  have hliteral : Mode.IsWithin quote (.literal quote) := Or.inl rfl
  have hescaped : Mode.IsWithin quote (.escaped quote) := Or.inr rfl
  have hescape : Mode.escape ≠ quote.char := by cases quote <;> decide
  induction cs using closesAtEnd.induct quote.char generalizing fresh with
  | case1 =>
      rw [Mode.modesFrom, endsLiteral_cons hliteral]
      simp [closesAtEnd, not_endsLiteral_nil]
  | case2 c =>
      rw [Mode.modesFrom, endsLiteral_cons hliteral]
      by_cases hc : c = quote.char
      · simp [closesAtEnd, Mode.step, Mode.modesFrom, hc, endsLiteral_code_cons]
      · simp [closesAtEnd, Mode.step, Mode.modesFrom, hc, endsLiteral_cons hliteral,
          not_endsLiteral_nil]
  | case3 d rest =>
      -- the quote closes the literal, and something follows
      rw [Mode.modesFrom, endsLiteral_cons hliteral]
      have hstep : ((Mode.literal quote).step fresh quote.char (d :: rest).head?).2 = .code := by
        simp [Mode.step, hescape.symm]
      rw [hstep, Mode.modesFrom, endsLiteral_code_cons]
      simp [closesAtEnd, Mode.modesFrom_ne_nil]
  | case4 d rest hc ih =>
      rw [Mode.modesFrom, endsLiteral_cons hliteral]
      have hstep : ((Mode.literal quote).step fresh Mode.escape (d :: rest).head?).2 =
          .escaped quote := by
        simp [Mode.step]
      have hnext : ((Mode.escaped quote).step (isBlank Mode.escape) d rest.head?).2 =
          .literal quote := rfl
      rw [hstep, Mode.modesFrom, endsLiteral_cons hescaped, hnext]
      obtain ⟨-, hd, hrest⟩ : '\n' ≠ Mode.escape ∧ '\n' ≠ d ∧ '\n' ∉ rest := by
        simpa using hbreak
      rw [closesAtEnd, if_neg hescape, if_pos rfl]
      simpa [hd.symm] using ih (isBlank d) hrest
  | case5 c d rest hc he ih =>
      rw [Mode.modesFrom, endsLiteral_cons hliteral]
      have hstep : ((Mode.literal quote).step fresh c (d :: rest).head?).2 = .literal quote := by
        simp [Mode.step, hc, he]
      rw [hstep, closesAtEnd, if_neg hc, if_neg he]
      exact ih (isBlank c) fun h => hbreak (List.mem_cons_of_mem c h)

/-! ### Texts that start with a quote -/

/-- What starts with a quote is a constant only if it is a literal. -/
theorem isConstant_quoted (quote : Quote) (cs : List Char) :
    isConstant (quote.char :: cs) = closesAtEnd quote.char cs := by
  have hdigit : isDecimalDigit quote.char = false := by cases quote <;> decide
  have hquote : (quote.char = Quote.double.char || quote.char = Quote.single.char) = true := by
    cases quote <;> decide
  have hdecimal : isDecimalNumeral (quote.char :: cs) = false := by
    have hpoint : quote.char ≠ '.' := by cases quote <;> decide
    simp only [isDecimalNumeral, List.takeWhile_cons, List.dropWhile_cons, hdigit,
      Bool.false_eq_true, if_false]
    split
    · next rest heq => exact absurd (List.cons.inj heq).1 hpoint
    · rfl
  have hnumeral : isNumeral (quote.char :: cs) = false := by
    have hsign : dropSign (quote.char :: cs) = quote.char :: cs := by
      cases quote <;> rfl
    have hhexadecimal : isHexadecimal (quote.char :: cs) = false := by
      cases quote <;> rfl
    rw [isNumeral, hsign, hhexadecimal, hdecimal]
    rfl
  have hword : (constantWords.any fun word => isWord word (quote.char :: cs)) = false := by
    cases quote <;> rfl
  rw [isConstant, hnumeral, hword, isStringLiteral, hquote]
  simp

/-- A trimmed text without a line feed is a line. -/
theorem linesOf_of_isTrimmed {text : List Char} (hbreak : '\n' ∉ text) (h : IsTrimmed text) :
    linesOf text = [text] := by
  have hsplit : splitBreaks (List.intercalate ['\n'] [text]) = [text] :=
    splitBreaks_intercalate (List.cons_ne_nil text []) (by simpa using hbreak)
  have hreturn : dropReturn text = text := by
    rcases dropReturn_cases text with heq | ⟨-, heq⟩
    · have hlast : isBlank '\r' = false := h.2 '\r' (by rw [heq]; simp)
      exact absurd hlast (by decide)
    · exact heq
  rw [linesOf, show text = List.intercalate ['\n'] [text] by simp [List.intercalate], hsplit]
  simp [hreturn]

/-- The literal that a line opens with closes at its end just if its modes end it there. -/
theorem isLiteral_iff_endsLiteral {quote : Quote} {cs : List Char}
    (h : linesOf (quote.char :: cs) = [quote.char :: cs]) :
    IsLiteral (quote.char :: cs) 0 0 cs.length ↔
      EndsLiteral quote ((Mode.literal quote).modesFrom (isBlank quote.char) cs) := by
  have hopen : (Mode.code.step true quote.char cs.head?).2 = .literal quote := by
    cases quote <;> rfl
  have hmodes : modesOfLine (quote.char :: cs) 0 =
      .code :: (Mode.literal quote).modesFrom (isBlank quote.char) cs := by
    simp only [modesOfLine, h, List.getElem?_cons_zero, List.take_zero, modeAfter, Mode.modesFrom,
      hopen]
  have hlength := Mode.length_modesFrom (.literal quote) (isBlank quote.char) cs
  constructor
  · rintro ⟨quote', before, inside, after, hsplit, hbefore, hinside, hne, hall⟩
    rw [List.length_eq_zero_iff.1 hbefore, hmodes, List.nil_append, List.cons.injEq] at hsplit
    obtain ⟨-, hsplit⟩ := hsplit
    -- the modes are one more than the characters, so that nothing is left behind the last
    have hafter : after = [] := by
      rw [hsplit, List.length_append, List.length_cons] at hlength
      exact List.length_eq_zero_iff.1 (by omega)
    obtain ⟨first, inside, rfl⟩ := List.exists_cons_of_ne_nil hne
    obtain ⟨modes, hfirst⟩ :=
      Mode.exists_modesFrom (.literal quote) (isBlank quote.char) cs
    have hquote : quote' = quote := by
      rw [hfirst, List.cons_append, List.cons.injEq] at hsplit
      rcases hall first List.mem_cons_self with heq | heq
      · rw [← hsplit.1, Mode.literal.injEq] at heq
        exact heq.symm
      · rw [← hsplit.1] at heq
        exact Mode.noConfusion heq
    rw [hquote] at hall
    exact ⟨first :: inside, by rw [hsplit, hafter], hall⟩
  · rintro ⟨inside, hsplit, hall⟩
    rw [hsplit, List.length_append, List.length_singleton] at hlength
    refine ⟨quote, [], inside, [], by rw [hmodes, hsplit]; rfl, rfl, by omega, ?_, hall⟩
    rintro rfl
    obtain ⟨modes, hfirst⟩ :=
      Mode.exists_modesFrom (.literal quote) (isBlank quote.char) cs
    simp [hfirst] at hsplit

/--
A trimmed text of one line that starts with a quote is a constant just if the literal that opens
there closes with its last character.  It is an expression just if that literal closes before, or
never.
-/
theorem ofText_quoted (text : List Char) (hbreak : '\n' ∉ text) (htrim : trim text = text)
    (hquote : ∃ quote : Quote, text.head? = some quote.char) :
    ((DefaultValue.ofText text).kind = .constant ↔ IsLiteral text 0 0 (text.length - 1)) ∧
      ((DefaultValue.ofText text).kind = .expression ↔
        ∀ closing, IsLiteral text 0 0 closing → closing < text.length - 1) := by
  obtain ⟨quote, hhead⟩ := hquote
  obtain ⟨cs, rfl⟩ := List.head?_eq_some_iff.1 hhead
  have htrimmed : IsTrimmed (quote.char :: cs) := htrim ▸ isTrimmed_trim (quote.char :: cs)
  have hline := linesOf_of_isTrimmed hbreak htrimmed
  have hclosing : (quote.char :: cs).length - 1 = cs.length := rfl
  have hkind : (DefaultValue.ofText (quote.char :: cs)).kind = .constant ↔
      IsLiteral (quote.char :: cs) 0 0 cs.length := by
    rw [isLiteral_iff_endsLiteral hline, ← closesAtEnd_iff quote _
      fun h => hbreak (List.mem_cons_of_mem _ h), ← isConstant_quoted]
    simp [DefaultValue.ofText, htrim]
  rw [hclosing]
  refine ⟨hkind, ?_⟩
  have hother : (DefaultValue.ofText (quote.char :: cs)).kind = .expression ↔
      ¬(DefaultValue.ofText (quote.char :: cs)).kind = .constant := by
    cases (DefaultValue.ofText (quote.char :: cs)).kind <;> simp
  rw [hother, hkind]
  constructor
  · intro hnot closing h
    have hfirst : (linesOf (quote.char :: cs))[0]? = some (quote.char :: cs) := by rw [hline]; rfl
    obtain ⟨-, hlt⟩ := h.closing_lt hfirst
    have hne : closing ≠ cs.length := by
      rintro rfl
      exact hnot h
    rw [List.length_cons] at hlt
    omega
  · intro h hliteral
    exact absurd (h cs.length hliteral) (lt_irrefl _)

/-- A literal with its own quote in it, behind an escape. -/
def escapedQuote : List Char :=
  "\"a\x60\"b\"".toList

/-- It closes at the last of its three quotes. -/
theorem ofText_quoted_escapedQuote :
    '\n' ∉ escapedQuote ∧ trim escapedQuote = escapedQuote ∧ IsLiteral escapedQuote 0 0 5 := by
  have hbreak : '\n' ∉ escapedQuote := by decide
  have htrim : trim escapedQuote = escapedQuote := by decide +kernel
  have hkind : (DefaultValue.ofText escapedQuote).kind = .constant := by decide +kernel
  exact ⟨hbreak, htrim, (ofText_quoted escapedQuote hbreak htrim ⟨.double, rfl⟩).1.1 hkind⟩

end ScriptOutline
