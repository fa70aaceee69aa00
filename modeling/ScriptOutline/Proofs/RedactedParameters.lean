/-
**Lists of parameters with the insides of their literals overwritten.**

A colon inside a literal may be taken for the mark of a type hint.  But then the name in front of it
holds the quote that the literal starts with, and a name with a quote is wrong in either text.

Main definitions:

* `NamesQuote` — what is read has a quote in its name;
* `Parameter.withoutTexts` — a parameter up to its texts.

Main results:

* `readDeclared_redacts` — names, type hints and markers;
* `Parameter.read_redacts` — one parameter;
* `readParameters_redacted` — **a list of sealed segments is read the same, up to texts**.
-/

import ScriptOutline.Proofs.RedactedSegments

set_option relaxedAutoImplicit false
set_option autoImplicit false

namespace ScriptOutline

/-! ### Names and type hints -/

/-- What is read of a segment has a quote in its name, if it can be read at all. -/
def NamesQuote (read : Except ParameterError (List Char × Option (List Char) × Markers)) : Prop :=
  ∀ name hint markers, read = .ok (name, hint, markers) → ∃ c ∈ name, isQuoteMark c = true

theorem splitColon?_append {xs : List Char} (h : ':' ∉ xs) (ys : List Char) :
    splitColon? (xs ++ ys) =
      (splitColon? ys).map fun (before, after) => (xs ++ before, after) := by
  induction xs with
  | nil => cases hys : splitColon? ys <;> simp [hys]
  | cons c xs ih =>
      rw [List.mem_cons, not_or] at h
      have hc : c ≠ ':' := fun heq => h.1 heq.symm
      simp only [List.cons_append, splitColon?, hc, if_false, ih h.2, Option.map_map]
      rfl

theorem mem_trimStart {c : Char} {cs : List Char} (h : c ∈ cs) (hc : isBlank c = false) :
    c ∈ trimStart cs := by
  rw [← List.takeWhile_append_dropWhile (p := isBlank) (l := cs)] at h
  rcases List.mem_append.1 h with h | h
  · rw [List.mem_takeWhile_imp h] at hc
    exact Bool.noConfusion hc
  · exact h

theorem mem_trim {c : Char} {cs : List Char} (h : c ∈ cs) (hc : isBlank c = false) :
    c ∈ trim cs := by
  have hstart := mem_trimStart h hc
  rw [trim, trimEnd, List.mem_reverse]
  exact mem_trimStart (List.mem_reverse.2 hstart) hc

theorem mem_stripMarkers {c : Char} {cs : List Char} (h : c ∈ cs) (hc : isTight c = true) :
    c ∈ (stripMarkers cs).1 := by
  have hmem : c ∈ cs.reverse := List.mem_reverse.2 h
  simp only [stripMarkers, List.mem_reverse]
  generalize cs.reverse = back at hmem
  induction back with
  | nil => exact hmem
  | cons d back ih =>
      rw [stripBackwards_cons]
      split
      · exact hmem
      · next hd =>
          rcases List.mem_cons.1 hmem with rfl | hmem
          · exact absurd hc hd
          · exact ih hmem

/-- A quote in front of the first colon is part of the name. -/
theorem namesQuote_readDeclared {position : Nat} {cs before after : List Char} {c : Char}
    (hcs : (stripMarkers cs).1 = before ++ c :: after) (hbefore : ':' ∉ before)
    (hc : isQuoteMark c = true) : NamesQuote (readDeclared position cs) := by
  intro name hint markers hread
  have htight := isTight_of_isQuoteMark hc
  have hblank := not_isBlank_of_isTight htight
  have hcolon : c ≠ ':' := by
    rintro rfl
    exact absurd hc (by decide)
  have hsplit : splitColon? (before ++ c :: after) =
      (splitColon? after).map fun (inner, rest) => (before ++ c :: inner, rest) := by
    rw [splitColon?_append hbefore]
    simp only [splitColon?, hcolon, if_false, Option.map_map]
    rfl
  simp only [readDeclared, hcs, hsplit] at hread
  cases hafter : splitColon? after with
  | none =>
      simp only [hafter, Option.map_none, Except.ok.injEq, Prod.mk.injEq] at hread
      rw [← hread.1]
      exact ⟨c, mem_trim (by simp) hblank, hc⟩
  | some found =>
      simp only [hafter, Option.map_some] at hread
      split at hread
      · simp at hread
      · simp only [Except.ok.injEq, Prod.mk.injEq] at hread
        rw [← hread.1]
        exact ⟨c, mem_trim (mem_stripMarkers (by simp) htight) hblank, hc⟩

/--
A run of cells up to its first colon outside of literals: there is no literal before it, or one
starts there.
-/
theorem exists_first_colon {cells : List Cell} (h : WellQuoted cells) :
    ∃ xs ys, cells = xs ++ ys ∧ (∀ c ∈ xs, c.isLiteral = false) ∧ ':' ∉ xs.map Cell.char ∧
      ∀ c ∈ ys.head?, c.isLiteral = true ∧ isQuoteMark c.char = true ∨
        c.isLiteral = false ∧ c.char = ':' := by
  induction cells with
  | nil => exact ⟨[], [], rfl, by simp, by simp, by simp⟩
  | cons c rest ih =>
      cases hc : c.isLiteral with
      | true =>
          refine ⟨[], c :: rest, rfl, by simp, by simp, ?_⟩
          rintro d ⟨⟩
          exact Or.inl ⟨hc, h.isQuoteMark_head hc⟩
      | false =>
          by_cases hcolon : c.char = ':'
          · refine ⟨[], c :: rest, rfl, by simp, by simp, ?_⟩
            rintro d ⟨⟩
            exact Or.inr ⟨hc, hcolon⟩
          · obtain ⟨xs, ys, rfl, hxs, hnot, hhead⟩ := ih (h.tail hc)
            refine ⟨c :: xs, ys, rfl, List.forall_mem_cons.2 ⟨hc, hxs⟩, ?_, hhead⟩
            rw [List.map_cons, List.mem_cons, not_or]
            exact ⟨fun heq => hcolon heq.symm, hnot⟩

/-- What is read before the default value: the same up to the hint, or a name with a quote. -/
theorem readDeclared_redacts {t t' : List Char} (h : TextRedacts t t') (position : Nat) :
    (NamesQuote (readDeclared position t) ∧ NamesQuote (readDeclared position t')) ∨
      ∃ name hint hint' markers, readDeclared position t = .ok (name, hint, markers) ∧
        readDeclared position t' = .ok (name, hint', markers) ∧ hint.isSome = hint'.isSome := by
  obtain ⟨hmarkers, cells, hq, hleft, hleft'⟩ := h.stripMarkers
  obtain ⟨xs, ys, rfl, hxs, hnot, hhead⟩ := exists_first_colon hq
  have hself := map_redacted_of_not_literal hxs
  rw [List.map_append] at hleft hleft'
  rw [List.map_append, hself] at hleft'
  cases ys with
  | nil =>
      simp only [List.map_nil, List.append_nil] at hleft hleft'
      have hnone : splitColon? (xs.map Cell.char) = none := by
        have happend := splitColon?_append hnot []
        rwa [List.append_nil] at happend
      refine Or.inr ⟨trim (xs.map Cell.char), none, none, (stripMarkers t).2, ?_, ?_, rfl⟩
      · simp only [readDeclared, ← hleft, hnone]
      · simp only [readDeclared, ← hleft', hnone, hmarkers]
  | cons c ys =>
      rcases hhead c rfl with ⟨-, hmark⟩ | ⟨hc, hcolon⟩
      -- the first colon may be inside the literal, but in front of it stands the quote
      · rw [List.map_cons, Cell.redacted_of_isQuoteMark hmark] at hleft'
        exact Or.inl ⟨namesQuote_readDeclared hleft.symm hnot hmark,
          namesQuote_readDeclared hleft'.symm hnot hmark⟩
      · have hhint : TextRedacts (ys.map Cell.char) ((ys.map Cell.redacted).map Cell.char) :=
          ⟨ys, (hq.split hc).2, rfl, rfl⟩
        have hempty := hhint.trim.isEmpty_eq
        rw [List.map_cons, Cell.redacted_of_not_literal hc] at hleft'
        have hsplit (after : List Char) : splitColon? (xs.map Cell.char ++ ':' :: after) =
            some (xs.map Cell.char, after) := by
          rw [splitColon?_append hnot]
          simp [splitColon?]
        rw [List.map_cons, hcolon] at hleft hleft'
        simp only [readDeclared, ← hleft, ← hleft', hsplit, ← hempty, ← hmarkers]
        split
        · exact Or.inl ⟨fun _ _ _ hread => by simp at hread, fun _ _ _ hread => by simp at hread⟩
        · exact Or.inr ⟨_, _, _, _, rfl, rfl, rfl⟩

/-! ### Parameters -/

/-- A parameter without the text and the kind of its default value, and without its hint's text. -/
def Parameter.withoutTexts (p : Parameter) : Parameter :=
  { p with
    defaultValue := p.defaultValue.map fun _ => ⟨.constant, ""⟩
    typeHint := p.typeHint.map fun _ => "" }

theorem readName_of_quote {name : List Char} {c : Char} (hc : c ∈ name)
    (hquote : isQuoteMark c = true) (variadic : Bool) :
    readName name variadic = .error (.invalidName (String.ofList name)) := by
  have hne : name.isEmpty = false := by
    cases name with
    | nil => simp at hc
    | cons => rfl
  have hnot : isIdentifier name = false := by
    cases hname : isIdentifier name with
    | false => rfl
    | true =>
        have hplain := plain_of_identifier hname c hc
        rw [hquote] at hplain
        exact Bool.noConfusion hplain
  simp [readName, hne, hnot]

/-- Default values are found in both texts or in neither, and are wrong in both or in neither. -/
theorem readDefault_redacts {value value' : Option (List Char)}
    (h : Option.Rel TextRedacts value value') (name : String) (variadic : Bool) :
    (readDefault name variadic value).toOption.map Option.isSome =
      (readDefault name variadic value').toOption.map Option.isSome := by
  cases h with
  | none => rfl
  | some hvalue =>
      simp only [readDefault, hvalue.isEmpty_eq]
      split
      · rfl
      · split <;> rfl

/-- What is left of a segment without blanks at its ends. -/
theorem WellQuoted.exists_trim {cells : List Cell} (h : WellQuoted cells)
    (ha : assignsInCode cells = true) :
    ∃ kept, WellQuoted kept ∧ assignsInCode kept = true ∧
      trim (cells.map Cell.char) = kept.map Cell.char ∧
      trim ((cells.map Cell.redacted).map Cell.char) = (kept.map Cell.redacted).map Cell.char := by
  obtain ⟨blanks, inner, rfl, hblanks, hinner, htrim, htrim'⟩ := h.exists_trimStart
  obtain ⟨kept, blanks', rfl, hkept, hend, hend'⟩ := hinner.exists_trimEnd
  refine ⟨kept, hkept, assignsInCode_of_append (assignsInCode_of_blanks hblanks ha), ?_, ?_⟩
  · rw [trim, htrim, hend]
  · rw [trim, htrim', hend']

theorem toOption_bind_of_namesQuote {α : Type}
    {read : Except ParameterError (List Char × Option (List Char) × Markers)} (h : NamesQuote read)
    (k : List Char × Option (List Char) × Markers → String → Except ParameterError α) :
    (read >>= fun x => readName x.1 x.2.2.variadic >>= k x).toOption = none := by
  cases read with
  | error e => rfl
  | ok found =>
      obtain ⟨name, hint, markers⟩ := found
      obtain ⟨c, hc, hquote⟩ := h name hint markers rfl
      simp [bind, Except.bind, readName_of_quote hc hquote, Except.toOption]

theorem map_const_of_isSome {α β : Type} {x y : Option α} (h : x.isSome = y.isSome) (b : β) :
    x.map (fun _ => b) = y.map fun _ => b := by
  cases x <;> cases y <;> first | rfl | simp at h

/-- A sealed segment is read the same, up to texts, whatever its literals hold. -/
theorem Parameter.read_redacts {cells : List Cell} (h : WellQuoted cells)
    (ha : assignsInCode cells = true) (position : Nat) :
    (Parameter.read position (cells.map Cell.char)).toOption.map withoutTexts =
      (Parameter.read position ((cells.map Cell.redacted).map Cell.char)).toOption.map
        withoutTexts := by
  obtain ⟨kept, hkept, hassigns, htrim, htrim'⟩ := h.exists_trim ha
  obtain ⟨hdeclared, hvalue⟩ := splitDefault_redacts hkept hassigns
  obtain ⟨hreference, hdeclared⟩ := hdeclared.trim.stripReference
  have hempty : (kept.map Cell.char).isEmpty =
      ((kept.map Cell.redacted).map Cell.char).isEmpty := by simp
  simp only [Parameter.read, htrim, htrim', hempty, hreference]
  split
  · rfl
  · rcases readDeclared_redacts hdeclared position with
      ⟨hquote, hquote'⟩ | ⟨name, hint, hint', markers, hread, hread', hhint⟩
    -- a name with a quote is wrong, in whichever way the hint is cut off
    · rw [toOption_bind_of_namesQuote hquote, toOption_bind_of_namesQuote hquote']
    · rw [hread, hread']
      simp only [bind, Except.bind]
      cases readName name markers.variadic with
      | error e => rfl
      | ok name =>
          have hdefault := readDefault_redacts hvalue name markers.variadic
          dsimp only
          generalize readDefault name markers.variadic _ = v at hdefault ⊢
          generalize readDefault name markers.variadic _ = v' at hdefault ⊢
          cases v with
          | error e =>
              cases v' with
              | error e' => rfl
              | ok value' => simp [Except.toOption] at hdefault
          | ok value =>
              cases v' with
              | error e' => simp [Except.toOption] at hdefault
              | ok value' =>
                  have hsome : value.isSome = value'.isSome := by
                    simpa [Except.toOption] using hdefault
                  have hvalues := map_const_of_isSome hsome (DefaultValue.mk .constant "")
                  have hhints := map_const_of_isSome hhint ""
                  simp [Except.toOption, pure, Except.pure, withoutTexts, hsome, hvalues,
                    Function.comp_def, hhints]

/-! ### Lists of parameters -/

/-- Lists are cut at commas of the code. -/
theorem segmentsFrom_redacted (depth : Nat) (cells : List Cell) :
    segmentsFrom depth (cells.map Cell.redacted) =
      (segmentsFrom depth cells).map (List.map Cell.redacted) := by
  induction cells generalizing depth with
  | nil => rfl
  | cons c rest ih =>
      simp only [List.map_cons, segmentsFrom, Cell.isCodeChar_redacted, bracketStep_redacted, ih]
      split
      · rfl
      · cases segmentsFrom (bracketStep depth c) rest <;> rfl

/-- In every segment of a list a literal starts with a quote. -/
theorem isChain_opens_segmentsFrom (depth : Nat) {c : Cell} {cells : List Cell}
    (h : (c :: cells).IsChain (Opens isQuoteMark)) :
    (∀ segment ∈ (segmentsFrom depth cells).head?, (c :: segment).IsChain (Opens isQuoteMark)) ∧
      ∀ segment ∈ (segmentsFrom depth cells).tail,
        (Cell.space :: segment).IsChain (Opens isQuoteMark) := by
  -- the first segment goes on from the cell before, every later one starts afresh behind a comma
  induction cells generalizing depth c with
  | nil =>
      constructor
      · rintro segment ⟨⟩
        exact List.isChain_singleton c
      · simp [segmentsFrom]
  | cons d rest ih =>
      rw [List.isChain_cons_cons] at h
      simp only [segmentsFrom]
      split
      · next hcomma =>
          simp only [Bool.and_eq_true, Cell.isCodeChar] at hcomma
          have hd := Cell.not_literal_of_isCode hcomma.2.1
          obtain ⟨hhead, htail⟩ := ih 0 (isChain_opens_of_not_literal (d := Cell.space) h.2 hd)
          constructor
          · rintro segment ⟨⟩
            exact List.isChain_singleton c
          · intro segment hsegment
            rw [List.tail_cons] at hsegment
            cases hrest : segmentsFrom 0 rest with
            | nil => simp [hrest] at hsegment
            | cons first others =>
                rw [hrest] at hhead htail hsegment
                rcases List.mem_cons.1 hsegment with rfl | hsegment
                · exact hhead _ rfl
                · exact htail _ hsegment
      · obtain ⟨hhead, htail⟩ := ih (bracketStep depth d) h.2
        cases hrest : segmentsFrom (bracketStep depth d) rest with
        | nil =>
            constructor
            · rintro segment ⟨⟩
              exact List.isChain_cons_cons.2 ⟨h.1, List.isChain_singleton d⟩
            · simp
        | cons first others =>
            rw [hrest] at hhead htail
            constructor
            · rintro segment ⟨⟩
              exact List.isChain_cons_cons.2 ⟨h.1, hhead first rfl⟩
            · exact htail

/-- The sealed segments of a list. -/
theorem wellQuoted_of_mem_segmentsFrom {cells : List Cell}
    (h : (Cell.space :: cells).IsChain (Opens isQuoteMark)) {segment : List Cell}
    (hsegment : segment ∈ segmentsFrom 0 cells) (hsealed : IsSealed segment) :
    WellQuoted segment := by
  obtain ⟨hhead, htail⟩ := isChain_opens_segmentsFrom 0 h
  refine ⟨?_, hsealed.ends⟩
  cases hsegments : segmentsFrom 0 cells with
  | nil => simp [hsegments] at hsegment
  | cons first others =>
      rw [hsegments] at hhead htail hsegment
      rcases List.mem_cons.1 hsegment with rfl | hsegment
      · exact hhead _ rfl
      · exact htail _ hsegment

/-- A parameter in front of others, up to texts. -/
theorem toOption_cons (x : Except ParameterError Parameter)
    (xs : Except ParameterError (List Parameter)) :
    (do return (← x) :: (← xs)).toOption.map (List.map Parameter.withoutTexts) =
      (x.toOption.map Parameter.withoutTexts).bind fun p =>
        (xs.toOption.map (List.map Parameter.withoutTexts)).map (p :: ·) := by
  cases x with
  | error e => rfl
  | ok p => cases xs <;> rfl

theorem readSegments_redacted {segments : List (List Cell)}
    (h : ∀ segment ∈ segments, WellQuoted segment ∧ assignsInCode segment = true)
    (position : Nat) :
    (readSegments position (segments.map (·.map Cell.char))).toOption.map
        (List.map Parameter.withoutTexts) =
      (readSegments position ((segments.map (List.map Cell.redacted)).map
        (·.map Cell.char))).toOption.map (List.map Parameter.withoutTexts) := by
  induction segments generalizing position with
  | nil => rfl
  | cons segment rest ih =>
      obtain ⟨⟨hquoted, hassigns⟩, hrest⟩ := List.forall_mem_cons.1 h
      have hfirst := Parameter.read_redacts hquoted hassigns position
      have hothers := ih hrest (position + 1)
      simp only [List.map_cons, readSegments, toOption_cons, hfirst, hothers]

/-- The last misplaced collector does not depend on texts. -/
theorem misplacedVariadic?_withoutTexts (ps : List Parameter) :
    misplacedVariadic? (ps.map Parameter.withoutTexts) =
      (misplacedVariadic? ps).map Parameter.withoutTexts := by
  rw [misplacedVariadic?, ← List.map_reverse, ← List.map_tail, List.find?_map]
  rfl

/-- A collector is misplaced in both of two lists that are the same up to texts, or in neither. -/
theorem toOption_placed {ps qs : List Parameter}
    (h : ps.map Parameter.withoutTexts = qs.map Parameter.withoutTexts) :
    (match misplacedVariadic? ps with
      | some p => Except.error (ParameterError.variadicNotLast p.name)
      | none => pure ps).toOption.map (List.map Parameter.withoutTexts) =
    (match misplacedVariadic? qs with
      | some p => Except.error (ParameterError.variadicNotLast p.name)
      | none => pure qs).toOption.map (List.map Parameter.withoutTexts) := by
  have hplaced := congrArg (Option.isSome ∘ misplacedVariadic?) h
  simp only [Function.comp_apply, misplacedVariadic?_withoutTexts, Option.isSome_map] at hplaced
  cases hps : misplacedVariadic? ps with
  | none =>
      cases hqs : misplacedVariadic? qs with
      | none => simpa [pure, Except.pure, Except.toOption] using h
      | some q => simp [hps, hqs] at hplaced
  | some p =>
      cases hqs : misplacedVariadic? qs with
      | none => simp [hps, hqs] at hplaced
      | some q => rfl

/-- A segment is blank if the redacted one is. -/
theorem isEmpty_trim_redacted {segment : List Cell} (h : WellQuoted segment) :
    (trim (segment.map Cell.char)).isEmpty =
      (trim ((segment.map Cell.redacted).map Cell.char)).isEmpty :=
  TextRedacts.isEmpty_eq (TextRedacts.trim ⟨segment, h, rfl, rfl⟩)

/-- A list of sealed segments is read the same, up to texts, whatever its literals hold. -/
theorem readParameters_redacted {cells : List Cell}
    (h : (Cell.space :: cells).IsChain (Opens isQuoteMark))
    (hsealed : ∀ segment ∈ segmentsFrom 0 cells, IsSealed segment) :
    (readParameters cells).toOption.map (List.map Parameter.withoutTexts) =
      (readParameters (cells.map Cell.redacted)).toOption.map
        (List.map Parameter.withoutTexts) := by
  have hquoted (segment : List Cell) (hsegment : segment ∈ segmentsFrom 0 cells) :
      WellQuoted segment ∧ assignsInCode segment = true :=
    ⟨wellQuoted_of_mem_segmentsFrom h hsegment (hsealed segment hsegment),
      (hsealed segment hsegment).assigns⟩
  have hread := readSegments_redacted hquoted 0
  have hblank : ((segmentsFrom 0 cells).map (·.map Cell.char)).all
        (fun segment => (trim segment).isEmpty) =
      (((segmentsFrom 0 cells).map (List.map Cell.redacted)).map (·.map Cell.char)).all
        fun segment => (trim segment).isEmpty := by
    rw [Bool.eq_iff_iff]
    simp only [List.all_map, List.all_eq_true, Function.comp_apply]
    exact forall₂_congr fun segment hsegment => by
      rw [isEmpty_trim_redacted (hquoted segment hsegment).1]
  simp only [readParameters, splitSegments, segmentsFrom_redacted, List.length_map, ← hblank]
  split
  · rfl
  · generalize readSegments 0 _ = ps at hread ⊢
    generalize readSegments 0 _ = qs at hread ⊢
    cases ps with
    | error e =>
        cases qs with
        | error e' => rfl
        | ok qs => simp [Except.toOption] at hread
    | ok ps =>
        cases qs with
        | error e' => simp [Except.toOption] at hread
        | ok qs =>
            have hlist : ps.map Parameter.withoutTexts = qs.map Parameter.withoutTexts := by
              simpa [Except.toOption] using hread
            exact toOption_placed hlist

end ScriptOutline
