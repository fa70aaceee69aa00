/-
**The hint of a string literal.**

The hint of an initializer is read off its text as it is shown: a literal is shown as its two
quotes, with blanks between them.  A quote behind an escape is shown as well, though, and with it
the text does not look like one literal any more, so that the variable has no hint.

Main definitions:

* `HoldsQuote` — the opening quote of a literal occurs between its ends;
* `GetsLiteral` — the chain that starts at a position gives one literal to its names;
* `IsReadAlone` — the hint of the chain is read off the literal only.

Main results:

* `Hint.ofText?_quoted` — the hint of a text that starts with a quote;
* `typeHint_literal` — **a variable that gets a literal has its hint just if it is read alone and
  holds no other quote of its kind**;
* `escapedQuote_hides_hint` — a literal with an escaped quote that gives no hint.
-/

import ScriptOutline.Proofs.InitializerHints
import ScriptOutline.Proofs.LiteralEnds
import ScriptOutline.Proofs.NumeralShapes

set_option relaxedAutoImplicit false
set_option autoImplicit false

namespace ScriptOutline

/-! ### Texts that start with a quote -/

/-- A text with two quotes is between them if it ends with the second and holds no other. -/
theorem isBetween_quotes {quote : Char} (inside tail : List Char) :
    isBetween quote (quote :: (inside ++ quote :: tail)) = true ↔ quote ∉ inside ∧ tail = [] := by
  rcases List.eq_nil_or_concat tail with rfl | ⟨init, c, rfl⟩
  · simp [isBetween]
  · -- the second quote is not the last character
    have hsplit : inside ++ quote :: init.concat c = (inside ++ quote :: init) ++ [c] := by simp
    rw [isBetween, hsplit, List.dropLast_concat]
    simp

theorem Quote.isBlank_char (quote : Quote) : isBlank quote.char = false := by
  cases quote <;> decide

/-- A text that starts with a quote is one literal, or gives no hint. -/
theorem Hint.ofText?_of_quote (quote : Quote) {rest : List Char}
    (h : IsTrimmed (quote.char :: rest)) :
    Hint.ofText? (quote.char :: rest) =
      if isBetween quote.char (quote.char :: rest) then some .string else none := by
  have hdigit : isDecimalDigit quote.char = false := by cases quote <;> decide +kernel
  obtain ⟨hinteger, hfloat⟩ := not_numeral_of_head hdigit (by cases quote <;> decide) rest
  have hcall :
      (builtInClasses.find? fun named => isCallOf named.1 (quote.char :: rest)) = none := by
    cases quote <;> rfl
  unfold Hint.ofText?
  simp only [trim_of_isTrimmed h, hinteger, hfloat, hcall]
  cases quote <;> simp [isBetween, isEnclosed, Quote.char]

/-- A text that starts with two quotes is their literal if only blanks follow, or gives no hint. -/
theorem Hint.ofText?_quoted (quote : Quote) {gap : List Char} (hgap : ∀ c ∈ gap, isBlank c = true)
    (inside tail : List Char) :
    Hint.ofText? (gap ++ quote.char :: (inside ++ quote.char :: tail)) =
      if quote.char ∉ inside ∧ tail.all isBlank = true then some .string else none := by
  have htrim : trim (gap ++ quote.char :: (inside ++ quote.char :: tail)) =
      quote.char :: (inside ++ quote.char :: trimEnd tail) := by
    have hfront := @trimEnd_append (quote.char :: (inside ++ [quote.char]))
      (by simp [List.getLast?_cons, quote.isBlank_char]) tail
    rw [trim, trimStart_blanks hgap, trimStart_of_head (by simp [quote.isBlank_char])]
    simpa using hfront
  rw [← Hint.ofText?_trim, htrim, Hint.ofText?_of_quote quote (htrim ▸ isTrimmed_trim _)]
  simp only [isBetween_quotes, trimEnd_eq_nil_iff, List.all_eq_true]

/-- A text that starts with a quote assigns to no name. -/
theorem assignedName?_of_quote (quote : Quote) {gap : List Char}
    (hgap : ∀ c ∈ gap, isBlank c = true) (rest : List Char) :
    assignedName? (gap ++ quote.char :: rest) = none := by
  have hstart : isIdentifierStart quote.char = false := by cases quote <;> decide +kernel
  rw [assignedName?, trimStart_blanks hgap, trimStart_of_head (by simp [quote.isBlank_char]),
    identifier?, hstart]
  rfl

/-- A literal of blanks and quotes, with blanks around it, is closed. -/
theorem isClosed_quoted (quote : Quote) {gap inside gap' : List Char}
    (hgap : ∀ c ∈ gap, isBlank c = true) (hgap' : ∀ c ∈ gap', isBlank c = true)
    (hinside : ∀ c ∈ inside, c = ' ' ∨ c = quote.char) :
    isClosed 0 (gap ++ quote.char :: (inside ++ quote.char :: gap')) = true := by
  have hblank {c : Char} (hc : isBlank c = true) := charStep_of_class (by decide) hc
  have hquote : quote.char ≠ ',' ∧ ∀ depth, charStep depth quote.char = depth :=
    charStep_of_class (p := (· = quote.char)) (by cases quote <;> decide) (by simp)
  refine isClosed_of_plain fun c hc => ?_
  simp only [List.mem_append, List.mem_cons] at hc
  rcases hc with hc | rfl | hc | rfl | hc
  · exact hblank (hgap c hc)
  · exact hquote
  · rcases hinside c hc with rfl | rfl
    · exact hblank (by decide)
    · exact hquote
  · exact hquote
  · exact hblank (hgap' c hc)

/-! ### Literals as they are shown -/

/-- The character at a column comes again before another column. -/
def HoldsQuote (cs : List Char) (opening closing : Nat) : Prop :=
  ∃ column < closing, opening < column ∧ cs[column]? = cs[opening]?

instance (cs : List Char) (opening closing : Nat) : Decidable (HoldsQuote cs opening closing) :=
  inferInstanceAs (Decidable (∃ column < closing, opening < column ∧ cs[column]? = cs[opening]?))

theorem holdsQuote_iff {quote : Char} (before inside rest : List Char) :
    HoldsQuote (before ++ quote :: (inside ++ rest)) before.length
      (before.length + inside.length + 1) ↔ quote ∈ inside := by
  have hopening : (before ++ quote :: (inside ++ rest))[before.length]? = some quote := by simp
  have hget (i : Nat) (hi : i < inside.length) :
      (before ++ quote :: (inside ++ rest))[before.length + (i + 1)]? = inside[i]? := by
    rw [List.getElem?_append_right (by omega), Nat.add_sub_cancel_left, List.getElem?_cons_succ,
      List.getElem?_append_left hi]
  unfold HoldsQuote
  rw [hopening]
  constructor
  · rintro ⟨column, hhigh, hlow, hquote⟩
    obtain ⟨i, rfl⟩ : ∃ i, column = before.length + (i + 1) :=
      ⟨column - before.length - 1, by omega⟩
    rw [hget i (by omega)] at hquote
    exact List.mem_of_getElem? hquote
  · intro hquote
    obtain ⟨i, hi⟩ := List.mem_iff_getElem?.1 hquote
    have hlt := (List.getElem?_eq_some_iff.1 hi).1
    exact ⟨before.length + (i + 1), by omega, by omega, by rw [hget i hlt, hi]⟩

/-- Of a character of a literal its quote is shown, and a blank in the place of any other. -/
theorem Cell.masked_of_literal {cell : Cell} {quote : Quote} (h : cell.region = .literal quote) :
    cell.masked = if cell.char = quote.char then quote.char else ' ' := by
  simp only [masked, h]
  split
  · next hchar => exact hchar
  · rfl

theorem Cell.masked_eq_quote_iff {cell : Cell} {quote : Quote}
    (h : cell.region = .literal quote) : cell.masked = quote.char ↔ cell.char = quote.char := by
  rw [masked_of_literal h]
  split
  · next hchar => exact ⟨fun _ => hchar, fun _ => rfl⟩
  · next hchar =>
      have hspace : ' ' ≠ quote.char := by cases quote <;> decide
      exact ⟨fun h => absurd h hspace, fun h => absurd h hchar⟩

/-- Cells of which the body shows the middle are shown in three parts. -/
theorem bodyText_of_middle {body : Span} {excluded : List Span} {n : Nat} {l : Line}
    {before middle after : List Cell} (hcells : l.cells = before ++ (middle ++ after))
    (hmiddle : ∀ column, before.length ≤ column → column < before.length + middle.length →
      belongsTo body excluded ⟨n, column⟩ = true) :
    (bodyText body excluded n l).drop before.length =
      middle.map Cell.masked ++
        (bodyText body excluded n l).drop (before.length + middle.length) := by
  have hall : shownFrom body excluded n (0 + before.length) middle = middle.map Cell.masked :=
    shownFrom_of_belongsTo fun i hi => hmiddle _ (by omega) (by omega)
  rw [bodyText_eq_shownFrom, hcells, shownFrom_append, shownFrom_append, hall,
    List.drop_left' (by simp), ← List.append_assoc, List.drop_left' (by simp)]

/-- What is shown of a literal are its quotes, and the quotes and blanks that are between them. -/
theorem IsLiteral.exists_shown {text : List Char} {n opening closing : Nat} {l : Line}
    {body : Span} {excluded : List Span} (h : IsLiteral text n opening closing)
    (hl : (Source.scan text).line? n = some l)
    (hbelongs : ∀ column, opening ≤ column → column ≤ closing →
      belongsTo body excluded ⟨n, column⟩ = true) :
    ∃ (quote : Quote) (inside : List Char),
      (bodyText body excluded n l).drop opening =
        quote.char :: (inside ++ quote.char :: (bodyText body excluded n l).drop (closing + 1)) ∧
      (∀ c ∈ inside, c = ' ' ∨ c = quote.char) ∧
      (quote.char ∈ inside ↔ HoldsQuote l.text opening closing) := by
  obtain ⟨quote, before, inside, after, hcells, rfl, rfl, hinside⟩ := h.exists_cells hl
  refine ⟨quote, inside.map Cell.masked, ?_, ?_, ?_⟩
  · have hmiddle := @bodyText_of_middle body excluded n l before
      (⟨quote.char, .literal quote⟩ :: (inside ++ [⟨quote.char, .literal quote⟩])) after
      (by simp [hcells]) (fun column hlow hhigh => hbelongs column hlow (by simp at hhigh; omega))
    rw [hmiddle]
    simp [Cell.masked, Nat.add_assoc]
  · intro c hc
    obtain ⟨cell, hcell, rfl⟩ := List.mem_map.1 hc
    rw [Cell.masked_of_literal (hinside cell hcell)]
    split
    · exact Or.inr rfl
    · exact Or.inl rfl
  · have htext : l.text = before.map Cell.char ++
        quote.char :: (inside.map Cell.char ++ quote.char :: after.map Cell.char) := by
      simp [Line.text, hcells]
    have hholds := @holdsQuote_iff quote.char (before.map Cell.char) (inside.map Cell.char)
      (quote.char :: after.map Cell.char)
    rw [List.length_map, List.length_map] at hholds
    rw [htext, hholds, List.mem_map, List.mem_map]
    exact exists_congr fun cell => and_congr_right fun hcell =>
      Cell.masked_eq_quote_iff (hinside cell hcell)

/-! ### Variables that get a literal -/

/--
The chain that starts at a position of a text gives one literal to its names: the literal follows
the last mark of the chain, the body shows all of it, and behind it the line ends or comes to a
comma.
-/
structure GetsLiteral (text : List Char) (body : Span) (excluded : List Span) (p : Position)
    (l : Line) (opening closing : Nat) (after : List Char) : Prop where
  line : (Source.scan text).line? p.line = some l
  literal : IsLiteral text p.line opening closing
  belongs : ∀ column, opening ≤ column → column ≤ closing →
    belongsTo body excluded ⟨p.line, column⟩ = true
  chain : ∃ gap, (∀ c ∈ gap, isBlank c = true) ∧
    LeadsTo (bodyText body excluded p.line l) p.column
      (gap ++ (bodyText body excluded p.line l).drop opening)
  rest : ∃ gap, (∀ c ∈ gap, isBlank c = true) ∧
    (bodyText body excluded p.line l).drop (closing + 1) = gap ++ after
  stop : ∀ c ∈ after.head?, c = ','

/--
The hint of a chain that starts at a column is read off nothing that follows its first piece:
nothing does, and no caught error has its name there, or the line is that of a declaration.
-/
def IsReadAlone (cs : List Char) (column : Nat) (after : List Char) : Prop :=
  (declaredOn? cs).isSome ∨ after = [] ∧ ∀ m ∈ caughtNames cs, m.column ≠ column

instance (cs : List Char) (column : Nat) (after : List Char) :
    Decidable (IsReadAlone cs column after) :=
  inferInstanceAs (Decidable (_ ∨ _ ∧ _))

/-- The hint of a chain that gives what starts with two quotes to its names. -/
theorem chainHint_quoted (quote : Quote) {cs gap gap' after : List Char} {column : Nat}
    (hgap : ∀ c ∈ gap, isBlank c = true) (hgap' : ∀ c ∈ gap', isBlank c = true)
    (hafter : ∀ c ∈ after.head?, c = ',') (inside : List Char) :
    chainHint cs column (gap ++ quote.char :: (inside ++ quote.char :: gap')) after =
      if quote.char ∉ inside ∧ IsReadAlone cs column after then some .string else none := by
  have hblank : (gap' ++ after).all isBlank = true ↔ after = [] := by
    rw [List.all_eq_true]
    constructor
    · intro hall
      cases after with
      | nil => rfl
      | cons c after =>
          have hc := hall c (by simp)
          rw [hafter c rfl] at hc
          exact absurd hc (by decide)
    · rintro rfl
      simpa using hgap'
  unfold chainHint
  split
  · next hdeclared =>
      rw [Hint.ofText?_quoted quote hgap]
      have hall : gap'.all isBlank = true := List.all_eq_true.2 hgap'
      exact if_congr (and_congr_right fun _ => ⟨fun _ => Or.inl hdeclared, fun _ => hall⟩) rfl rfl
  · next hdeclared =>
      split
      · next hcaught =>
          rw [if_neg]
          rintro ⟨-, halone | ⟨-, halone⟩⟩
          · exact hdeclared halone
          · obtain ⟨m, hm, hcolumn⟩ := List.any_eq_true.1 hcaught
            exact halone m hm (by simpa using hcolumn)
      · next hcaught =>
          have hnone : ∀ m ∈ caughtNames cs, m.column ≠ column := by simpa using hcaught
          have hsplit : gap ++ quote.char :: (inside ++ quote.char :: gap') ++ after =
              gap ++ quote.char :: (inside ++ quote.char :: (gap' ++ after)) := by simp
          rw [hsplit, Hint.ofText?_quoted quote hgap]
          refine if_congr (and_congr_right fun _ => hblank.trans ⟨fun h => Or.inr ⟨h, hnone⟩, ?_⟩)
            rfl rfl
          rintro (halone | ⟨halone, -⟩)
          · exact absurd halone hdeclared
          · exact halone

/--
**A variable that gets a literal has its hint just if the literal is read alone and holds no other
quote of its kind.**
-/
theorem typeHint_literal {text : List Char} {body : Span} {excluded : List Span}
    {parameters : List Parameter} {v : Variable}
    (hv : v ∈ (findVariables (Source.scan text) body excluded parameters).toList) {l : Line}
    {opening closing : Nat} {after : List Char}
    (h : GetsLiteral text body excluded v.position l opening closing after) :
    v.typeHint =
      if ¬HoldsQuote l.text opening closing ∧
          IsReadAlone (bodyText body excluded v.position.line l) v.position.column after then
        some Hint.string.name
      else none := by
  obtain ⟨o, ho, rfl⟩ := exists_isFirst_of_mem_findVariables hv
  obtain ⟨hline, hliteral, hbelongs, ⟨gap, hgap, hchain⟩, ⟨gap', hgap', hrest⟩, hafter⟩ := h
  rw [Occurrence.position_eq] at hline hliteral hbelongs hchain hrest ⊢
  simp only at hline hliteral hbelongs hchain hrest ⊢
  have htext : o.line.text = bodyText body excluded o.line.number l := by
    obtain ⟨l', hl', htext⟩ := mem_bodyLines ho.1.1
    rw [htext, Option.some.inj (hl'.symm.trans hline)]
  obtain ⟨quote, inside, hshown, hinside, hholds⟩ := hliteral.exists_shown hline hbelongs
  rw [hrest] at hshown
  rw [← htext] at hchain hshown ⊢
  -- what follows the last mark are the literal with its blanks, and the rest of the line
  have hvalue : gap ++ o.line.text.drop opening =
      (gap ++ quote.char :: (inside ++ quote.char :: gap')) ++ after := by
    simp [hshown]
  have hnone : assignedName? (gap ++ o.line.text.drop opening) = none := by
    rw [hshown]
    exact assignedName?_of_quote quote hgap _
  rw [hvalue] at hchain hnone
  have hhint := hint_of_isFirst ho hchain hnone (isClosed_quoted quote hgap hgap' hinside) hafter
  rw [chainHint_quoted quote hgap hgap' hafter] at hhint
  simp only [Occurrence.toVariable, BodyLine.toVariable, hhint, hholds]
  split <;> rfl

/-- A body of one line has its columns. -/
theorem belongsTo_firstLine {column length : Nat} (h : column < length) :
    belongsTo ⟨⟨0, 0⟩, ⟨0, length⟩⟩ [] ⟨0, column⟩ = true := by
  refine belongsTo_iff.2 ⟨Span.contains_iff.2 ⟨?_, ?_⟩, by simp⟩
  · exact Position.le_iff.2 (Or.inr ⟨rfl, Nat.zero_le _⟩)
  · exact Position.lt_iff.2 (Or.inr ⟨rfl, h⟩)

/-- A declaration line with a chain of two names that get a literal, and another piece. -/
def chainOfLiteral : List Char :=
  "static a := b := \"it's\", c := 1".toList

/-- All of that line. -/
def chainOfLiteralSpan : Span :=
  ⟨⟨0, 0⟩, ⟨0, 31⟩⟩

/-- The second name of the chain has the hint of the literal, which ends at the comma. -/
theorem typeHint_literal_chain :
    ∃ v ∈ (findVariables (Source.scan chainOfLiteral) chainOfLiteralSpan [] []).toList,
      (∃ l, GetsLiteral chainOfLiteral chainOfLiteralSpan [] v.position l 17 22
        ", c := 1".toList) ∧ v.typeHint = some Hint.string.name := by
  have hv : ⟨"b", .static, true, ⟨0, 12⟩, some "String"⟩ ∈
      (findVariables (Source.scan chainOfLiteral) chainOfLiteralSpan [] []).toList := by
    decide +kernel
  obtain ⟨l, hl⟩ : ∃ l : Line, l =
      ⟨"static a := b := ".toList.map (⟨·, .code⟩) ++
        ("\"it's\"".toList.map (⟨·, .literal .double⟩) ++ ", c := 1".toList.map (⟨·, .code⟩)),
        0⟩ := ⟨_, rfl⟩
  have hgets : GetsLiteral chainOfLiteral chainOfLiteralSpan [] ⟨0, 12⟩ l 17 22
      ", c := 1".toList := by
    subst hl
    refine ⟨by decide +kernel, ?_, fun column _ h => belongsTo_firstLine (by omega), ?_,
      ⟨[], isBlank_of_mem_nil, by decide +kernel⟩, by simp⟩
    · exact ⟨.double, List.replicate 17 .code, List.replicate 5 (.literal .double),
        List.replicate 8 .code, by decide +kernel, rfl, rfl, by decide, by simp [Mode.IsWithin]⟩
    · exact ⟨[' '], isBlank_of_mem_space, "static a :=".toList,
        ⟨[' '], ['b'], [' '], isBlank_of_mem_space, by decide, isBlank_of_mem_space⟩, [],
        by decide +kernel, rfl⟩
  refine ⟨_, hv, ⟨l, hgets⟩, (typeHint_literal hv hgets).trans (if_pos ?_)⟩
  subst hl
  decide +kernel

/-- A name that gets a literal with its own quote in it, behind an escape. -/
def escapedLiteral : List Char :=
  "x := \"a\x60\"b\"".toList

/-- All of that line. -/
def escapedLiteralSpan : Span :=
  ⟨⟨0, 0⟩, ⟨0, 11⟩⟩

/-- The quote behind the escape is shown, and the literal gives no hint. -/
theorem escapedQuote_hides_hint :
    ∃ v ∈ (findVariables (Source.scan escapedLiteral) escapedLiteralSpan [] []).toList,
      (∃ l, GetsLiteral escapedLiteral escapedLiteralSpan [] v.position l 5 10 []) ∧
        v.typeHint = none := by
  refine ⟨⟨"x", .local, true, ⟨0, 0⟩, none⟩, by decide +kernel,
    ⟨⟨"x := ".toList.map (⟨·, .code⟩) ++
      "\"a\x60\"b\"".toList.map (⟨·, .literal .double⟩), 0⟩, ?_⟩, rfl⟩
  refine ⟨by decide +kernel, ?_, fun column _ h => belongsTo_firstLine (by omega), ?_,
    ⟨[], isBlank_of_mem_nil, by decide +kernel⟩, by simp⟩
  · exact ⟨.double, List.replicate 5 .code,
      [.literal .double, .literal .double, .escaped .double, .literal .double, .literal .double],
      [], by decide +kernel, rfl, rfl, by decide, by simp [Mode.IsWithin]⟩
  · exact ⟨[' '], isBlank_of_mem_space, [],
      ⟨[], ['x'], [' '], isBlank_of_mem_nil, by decide, isBlank_of_mem_space⟩, [],
      by decide +kernel, rfl⟩

end ScriptOutline
