/-
**Scanning goes line by line.**

A scanned line holds the characters of its piece of the text, each of them in one region, and a
carriage return before a line feed belongs to no line.  What stands above a line has a part in how
it is read by two things only: whether a block comment is open there, and how many braces are.
More text below changes nothing above.

Main definitions:

* `withReturns` — a text with a carriage return before each line feed;
* `notedCall` — a text that ends within a literal, below a pair of braces.

Main results:

* `linesOf_withReturns` — carriage returns before line feeds are in no line;
* `readLines_text` — reading keeps the characters of each line;
* `readLines_cells` — the braces open above have no part in the cells of a line;
* `Source.lines_append`, `Source.matchingBrace?_append` — lines and brace pairs of a text that
  stands above another;
* `scan_lines_local` — **scanning keeps every line, and is local**.
-/

import ScriptOutline.Proofs.Concatenation

set_option relaxedAutoImplicit false
set_option autoImplicit false

namespace ScriptOutline

/-! ### Carriage returns -/

/-- A text with a carriage return before each line feed. -/
def withReturns (text : List Char) : List Char :=
  text.flatMap fun c => if c = '\n' then ['\r', '\n'] else [c]

theorem withReturns_break (rest : List Char) :
    withReturns ('\n' :: rest) = '\r' :: '\n' :: withReturns rest := rfl

theorem withReturns_cons {c : Char} (hc : c ≠ '\n') (rest : List Char) :
    withReturns (c :: rest) = c :: withReturns rest := by
  simp [withReturns, hc]

/-- A line feed ends a line with nothing on it. -/
theorem linesOf_break (rest : List Char) : linesOf ('\n' :: rest) = [] :: linesOf rest := rfl

/-- So does a carriage return with its line feed. -/
theorem linesOf_return_break (rest : List Char) :
    linesOf ('\r' :: '\n' :: rest) = [] :: linesOf rest := by
  rw [show '\r' :: '\n' :: rest = ['\r'] ++ '\n' :: rest from rfl, linesOf_append]
  rfl

theorem dropReturn_cons {c : Char} (hc : c ≠ '\r') (piece : List Char) :
    dropReturn (c :: piece) = c :: dropReturn piece := by
  cases piece with
  | nil => simp [dropReturn, hc]
  | cons d piece =>
      simp only [dropReturn, List.getLast?_cons_cons]
      split <;> rfl

/-- Any other character is the first one of its line. -/
theorem linesOf_cons {c : Char} (hbreak : c ≠ '\n') (hreturn : c ≠ '\r') (rest : List Char) :
    linesOf (c :: rest) = (linesOf rest).modifyHead (c :: ·) := by
  simp only [linesOf, splitBreaks, hbreak, if_false]
  cases hrest : splitBreaks rest with
  | nil => exact absurd hrest (splitBreaks_ne_nil rest)
  | cons piece pieces =>
      simp only [List.map_cons, List.modifyHead_cons, dropReturn_cons hreturn]

/-- Carriage returns before line feeds are in no line. -/
theorem linesOf_withReturns {text : List Char} (h : '\r' ∉ text) :
    linesOf (withReturns text) = linesOf text := by
  induction text with
  | nil => rfl
  | cons c rest ih =>
      rw [List.mem_cons, not_or] at h
      by_cases hc : c = '\n'
      · rw [hc, withReturns_break, linesOf_return_break, linesOf_break, ih h.2]
      · have hreturn : c ≠ '\r' := fun heq => h.1 heq.symm
        rw [withReturns_cons hc, linesOf_cons hc hreturn, linesOf_cons hc hreturn, ih h.2]

/-! ### Reading lines -/

/-- Reading keeps the characters of each line. -/
theorem readLines_text (mode : Mode) (depth : Nat) (lines : List (List Char)) :
    (readLines mode depth lines).map Line.text = lines := by
  induction lines generalizing mode depth with
  | nil => rfl
  | cons line rest ih =>
      simp only [readLines, List.map_cons, ih, Line.text, Mode.read_chars]

/-- The braces that are open above have no part in the cells of a line. -/
theorem readLines_cells (mode : Mode) (depth depth' : Nat) (lines : List (List Char)) :
    (readLines mode depth lines).map Line.cells = (readLines mode depth' lines).map Line.cells := by
  induction lines generalizing mode depth depth' with
  | nil => rfl
  | cons line rest ih =>
      simp only [readLines, List.map_cons]
      rw [ih]

/-! ### A text above another -/

namespace Source

/-- The lines of two texts, one below the other. -/
theorem lines_append (a b : List Char) :
    (scan (a ++ '\n' :: b)).lines = (scan a).lines ++
      readLines (modeAfter .code (linesOf a)) (depthAfterLines .code 0 (linesOf a))
        (linesOf b) := by
  simp only [scan, linesOf_append, readLines_append]

/-- A pair of braces is not changed by what stands below it. -/
theorem matchingBrace?_append {a : List Char} (b : List Char) {p q : Position}
    (h : (scan a).matchingBrace? p = some q) :
    (scan (a ++ '\n' :: b)).matchingBrace? p = some q := by
  rw [matchingBrace?, isPaired_scan, spots, lines_append, spotsOfLines_append, pairBraces_append,
    List.lookup_append]
  rw [matchingBrace?, isPaired_scan, spots] at h
  rw [h, Option.some_or]

end Source

/--
The lines of a scanned text are the pieces between its line feeds, less the carriage return that
may end a piece, and each character of a line has its region; so line feeds may be written with a
carriage return before them.  Of two texts, one below the other, the first has the lines and brace
pairs that it has alone, and so have the characters of the second their regions if no block comment
is open at the end of the first.
-/
theorem scan_lines_local (text a b : List Char) :
    (Source.scan text).lines.map Line.text = (text.splitOn '\n').map dropReturn ∧
    (Source.scan text).lines.map (fun l => (l.cells.map Cell.region).length) =
      (text.splitOn '\n').map (fun piece => (dropReturn piece).length) ∧
    ('\r' ∉ text → Source.scan (withReturns text) = Source.scan text) ∧
    (Source.scan (a ++ '\n' :: b)).lines.take (Source.scan a).lineCount = (Source.scan a).lines ∧
    (∀ p q, (Source.scan a).matchingBrace? p = some q →
      (Source.scan (a ++ '\n' :: b)).matchingBrace? p = some q) ∧
    (modeAfter .code (linesOf a) ≠ .blockComment →
      ((Source.scan (a ++ '\n' :: b)).lines.drop (Source.scan a).lineCount).map Line.cells =
        (Source.scan b).lines.map Line.cells) := by
  have htext : (Source.scan text).lines.map Line.text = (text.splitOn '\n').map dropReturn := by
    rw [← splitBreaks_eq_splitOn]
    exact readLines_text .code 0 (linesOf text)
  refine ⟨htext, ?_, ?_, ?_, fun p q => Source.matchingBrace?_append b, ?_⟩
  · have hlength := congrArg (List.map List.length) htext
    simpa [Line.text, Function.comp_def] using hlength
  · intro hreturn
    simp only [Source.scan, linesOf_withReturns hreturn]
  · rw [Source.lines_append, Source.lineCount, List.take_left]
  · intro hmode
    -- a literal or a comment of one line ends with its line, so that only a block comment reaches down
    rw [Source.lines_append, Source.lineCount, List.drop_left,
      modeAfter_eq_code (linesOf_ne_nil a) hmode]
    exact readLines_cells .code _ 0 (linesOf b)

/-- A text that ends within a literal, below a pair of braces and a comment. -/
def notedCall : List Char :=
  "F() \x7b /* adds\n*/ \x7d\nG(\"a \x7b".toList

/-- A literal that is still open does not reach into the text below. -/
theorem scan_lines_local_notedCall :
    '\r' ∉ notedCall ∧ modeAfter .code (linesOf notedCall) ≠ .blockComment ∧
    Source.scan (withReturns notedCall) = Source.scan notedCall ∧
    (Source.scan notedCall).matchingBrace? ⟨0, 4⟩ = some ⟨1, 3⟩ ∧
    (Source.scan (notedCall ++ '\n' :: "\x7d b".toList)).matchingBrace? ⟨0, 4⟩ = some ⟨1, 3⟩ ∧
    ((Source.scan (notedCall ++ '\n' :: "\x7d b".toList)).lines.drop 3).map Line.cells =
      [[⟨'}', .code⟩, ⟨' ', .code⟩, ⟨'b', .code⟩]] := by
  have hreturn : '\r' ∉ notedCall := by decide
  have hmode : modeAfter .code (linesOf notedCall) ≠ .blockComment := by decide
  have hpair : (Source.scan notedCall).matchingBrace? ⟨0, 4⟩ = some ⟨1, 3⟩ := by decide +kernel
  obtain ⟨-, -, hreturns, -, hbraces, hbelow⟩ :=
    scan_lines_local notedCall notedCall "\x7d b".toList
  refine ⟨hreturn, hmode, hreturns hreturn, hpair, hbraces _ _ hpair, ?_⟩
  rw [show 3 = (Source.scan notedCall).lineCount by decide +kernel, hbelow hmode]
  decide +kernel

end ScriptOutline
