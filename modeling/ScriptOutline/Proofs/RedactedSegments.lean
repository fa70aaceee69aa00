/-
**Segments with the insides of their literals overwritten.**

A segment of a list of parameters is read off its plain text, where a literal can be mistaken for
something else: `:=` inside of one is taken for the mark of a default value, and a blank, a star or
a question mark at the open end of one is taken off as a blank or a marker.  In a sealed segment
neither happens, and its text falls into the same parts whatever its literals hold.

Main definitions:

* `isTight`, `WellQuoted` — literals that start with a quote and end in what no reader takes off;
* `assignsInCode` — the first `:=` is code;
* `IsSealed` — a segment whose literals are never mistaken for something else;
* `TextRedacts` — a text and the same text redacted.

Main results:

* `WellQuoted.split` — both sides of a cell outside of literals;
* `TextRedacts.trim`, `TextRedacts.stripMarkers`, `TextRedacts.stripReference` — blanks, markers and
  ampersands are taken off both texts alike;
* `splitDefault_redacts` — **a default value is found in both texts or in neither**.
-/

import ScriptOutline.Proofs.Redaction

set_option relaxedAutoImplicit false
set_option autoImplicit false

namespace ScriptOutline

/-! ### Literals that start and end with their quotes -/

/-- Whether a character is neither a blank nor a marker. -/
def isTight (c : Char) : Bool :=
  !isBlank c && c ≠ '*' && c ≠ '?'

theorem isTight_of_isQuoteMark {c : Char} (h : isQuoteMark c = true) : isTight c = true := by
  simp only [isQuoteMark, Bool.or_eq_true, decide_eq_true_eq] at h
  rcases h with rfl | rfl <;> decide

theorem not_isQuoteMark_of_isBlank {c : Char} (h : isBlank c = true) : isQuoteMark c = false :=
  (plain_of_blanks (by simpa using h) : Plain [c]) c List.mem_cons_self

theorem not_isBlank_of_isTight {c : Char} (h : isTight c = true) : isBlank c = false := by
  simp only [isTight, Bool.and_eq_true, Bool.not_eq_true'] at h
  exact h.1.1

/-- Literals start with a quote and, read backwards, with a tight character. -/
structure WellQuoted (cells : List Cell) : Prop where
  starts : (Cell.space :: cells).IsChain (Opens isQuoteMark)
  ends : (Cell.space :: cells.reverse).IsChain (Opens isTight)

namespace WellQuoted

variable {c : Cell} {xs ys cells : List Cell}

/-- Both sides of a cell outside of literals. -/
theorem split (h : WellQuoted (xs ++ c :: ys)) (hc : c.isLiteral = false) :
    WellQuoted xs ∧ WellQuoted ys := by
  obtain ⟨hstarts, hends⟩ := h
  rw [List.reverse_append, List.reverse_cons, List.append_assoc, List.singleton_append] at hends
  refine ⟨⟨?_, isChain_opens_of_append hends hc⟩, ⟨isChain_opens_of_append hstarts hc, ?_⟩⟩
  · rw [← List.cons_append] at hstarts
    exact (List.isChain_append.1 hstarts).1
  · rw [← List.cons_append] at hends
    exact (List.isChain_append.1 hends).1

theorem tail (h : WellQuoted (c :: cells)) (hc : c.isLiteral = false) : WellQuoted cells :=
  have hnil : WellQuoted ([] ++ c :: cells) := h
  (hnil.split hc).2

theorem init (h : WellQuoted (cells ++ [c])) (hc : c.isLiteral = false) : WellQuoted cells :=
  (h.split hc).1

/-- Both sides of some cells outside of literals. -/
theorem split_at {mark : List Cell} (h : WellQuoted (xs ++ mark ++ ys)) (hne : mark ≠ [])
    (hmark : ∀ c ∈ mark, c.isLiteral = false) : WellQuoted xs ∧ WellQuoted ys := by
  induction mark generalizing xs with
  | nil => exact absurd rfl hne
  | cons c mark ih =>
      obtain ⟨hc, hmark⟩ := List.forall_mem_cons.1 hmark
      rw [List.append_assoc, List.cons_append] at h
      obtain ⟨hxs, hys⟩ := h.split hc
      cases mark with
      | nil => exact ⟨hxs, hys⟩
      | cons d mark =>
          have hrest : WellQuoted ([] ++ d :: mark ++ ys) := hys
          exact ⟨hxs, (ih hrest (List.cons_ne_nil d mark) hmark).2⟩

/-- A literal at the start starts with its quote. -/
theorem isQuoteMark_head (h : WellQuoted (c :: cells)) (hc : c.isLiteral = true) :
    isQuoteMark c.char = true := by
  have hstart := List.rel_of_isChain_cons_cons h.starts
  exact (hstart hc).resolve_left (by decide)

/-- The first cell is never overwritten. -/
theorem redacted_head (h : WellQuoted (c :: cells)) : c.redacted = c := by
  cases hc : c.isLiteral with
  | false => exact Cell.redacted_of_not_literal hc
  | true => exact Cell.redacted_of_isQuoteMark (h.isQuoteMark_head hc)

/-- A first character that is no quote is no part of a literal. -/
theorem not_literal_head (h : WellQuoted (c :: cells)) (hc : isQuoteMark c.char = false) :
    c.isLiteral = false := by
  cases hliteral : c.isLiteral with
  | false => rfl
  | true =>
      rw [h.isQuoteMark_head hliteral] at hc
      exact Bool.noConfusion hc

/-- A literal at the end ends in a tight character. -/
theorem isTight_last (h : WellQuoted (cells ++ [c])) (hc : c.isLiteral = true) :
    isTight c.char = true := by
  have hends := h.ends
  rw [List.reverse_append, List.reverse_singleton, List.singleton_append] at hends
  have hend := List.rel_of_isChain_cons_cons hends
  exact (hend hc).resolve_left (by decide)

end WellQuoted

/-- What is overwritten is neither a blank nor a marker. -/
theorem isTight_redacted {c : Cell} (h : isTight c.char = true) :
    isTight c.redacted.char = true := by
  rcases c.redacted_char_cases with heq | ⟨-, heq⟩
  · rw [heq, h]
  · rw [heq]
    decide

/-! ### The first assignment -/

/-- Whether the first `:=` of a run of cells, if there is one, stands outside of literals. -/
def assignsInCode : List Cell → Bool
  | [] => true
  | [_] => true
  | c :: d :: rest =>
    if c.char = ':' && d.char = '=' then !c.isLiteral && !d.isLiteral else assignsInCode (d :: rest)

theorem assignsInCode_of_append {xs ys : List Cell} (h : assignsInCode (xs ++ ys) = true) :
    assignsInCode xs = true := by
  induction xs with
  | nil => rfl
  | cons c xs ih =>
      cases xs with
      | nil => rfl
      | cons d xs =>
          simp only [List.cons_append, assignsInCode] at h ih ⊢
          split at h
          · next hmark => simpa [hmark] using h
          · next hmark => simpa [hmark] using ih h

/-- Blanks at the start have no part in an assignment. -/
theorem assignsInCode_of_blanks {xs ys : List Cell} (hxs : ∀ c ∈ xs, isBlank c.char = true)
    (h : assignsInCode (xs ++ ys) = true) : assignsInCode ys = true := by
  induction xs with
  | nil => exact h
  | cons c xs ih =>
      obtain ⟨hc, hxs⟩ := List.forall_mem_cons.1 hxs
      refine ih hxs ?_
      have hcolon : c.char ≠ ':' := by
        intro heq
        rw [heq] at hc
        exact absurd hc (by decide)
      rw [List.cons_append] at h
      cases hrest : xs ++ ys with
      | nil => rfl
      | cons d rest => simpa [hrest, assignsInCode, hcolon] using h

/-- A segment whose literals are never mistaken for something else. -/
structure IsSealed (segment : List Cell) : Prop where
  /-- Its literals end neither in a blank nor in a marker. -/
  ends : (Cell.space :: segment.reverse).IsChain (Opens isTight)
  /-- Its first `:=` is code. -/
  assigns : assignsInCode segment = true

instance (segment : List Cell) : Decidable (IsSealed segment) :=
  decidable_of_iff ((Cell.space :: segment.reverse).IsChain (Opens isTight) ∧
    assignsInCode segment = true) ⟨fun h => ⟨h.1, h.2⟩, fun h => ⟨h.ends, h.assigns⟩⟩

/-! ### Trimming -/

theorem trimEnd_append_singleton (cs : List Char) (c : Char) :
    trimEnd (cs ++ [c]) = if isBlank c then trimEnd cs else cs ++ [c] := by
  simp only [trimEnd, List.reverse_append, List.reverse_singleton, List.singleton_append,
    List.dropWhile_cons]
  split
  · rfl
  · rw [List.reverse_cons, List.reverse_reverse]

namespace WellQuoted

variable {cells : List Cell}

/-- What is left without leading blanks, in a text and in the redacted text. -/
theorem exists_trimStart (h : WellQuoted cells) :
    ∃ blanks kept, cells = blanks ++ kept ∧ (∀ c ∈ blanks, isBlank c.char = true) ∧
      WellQuoted kept ∧ trimStart (cells.map Cell.char) = kept.map Cell.char ∧
      trimStart ((cells.map Cell.redacted).map Cell.char) =
        (kept.map Cell.redacted).map Cell.char := by
  induction cells with
  | nil => exact ⟨[], [], rfl, by simp, h, rfl, rfl⟩
  | cons c rest ih =>
      cases hblank : isBlank c.char with
      | true =>
          have hc := h.not_literal_head (not_isQuoteMark_of_isBlank hblank)
          obtain ⟨blanks, kept, rfl, hblanks, hkept, htrim, htrim'⟩ := ih (h.tail hc)
          refine ⟨c :: blanks, kept, rfl, List.forall_mem_cons.2 ⟨hblank, hblanks⟩, hkept, ?_, ?_⟩
          · rw [← htrim]
            simp [trimStart, hblank]
          · rw [← htrim']
            simp [trimStart, Cell.redacted_of_not_literal hc, hblank]
      | false =>
          exact ⟨[], c :: rest, rfl, by simp, h, by simp [trimStart, hblank],
            by simp [trimStart, h.redacted_head, hblank]⟩

/-- What is left without trailing blanks, in a text and in the redacted text. -/
theorem exists_trimEnd (h : WellQuoted cells) :
    ∃ kept blanks, cells = kept ++ blanks ∧ WellQuoted kept ∧
      trimEnd (cells.map Cell.char) = kept.map Cell.char ∧
      trimEnd ((cells.map Cell.redacted).map Cell.char) =
        (kept.map Cell.redacted).map Cell.char := by
  -- from the end, where a literal stops the trimming with its last character
  induction cells using List.reverseRecOn with
  | nil => exact ⟨[], [], rfl, h, rfl, rfl⟩
  | append_singleton rest c ih =>
      simp only [List.map_append, List.map_singleton, trimEnd_append_singleton]
      cases hc : c.isLiteral with
      | true =>
          have htight := h.isTight_last hc
          refine ⟨rest ++ [c], [], by simp, h, ?_, ?_⟩
          · simp [not_isBlank_of_isTight htight]
          · simp [not_isBlank_of_isTight (isTight_redacted htight)]
      | false =>
          rw [Cell.redacted_of_not_literal hc]
          split
          · obtain ⟨kept, blanks, rfl, hkept, htrim, htrim'⟩ := ih (h.init hc)
            exact ⟨kept, blanks ++ [c], by simp, hkept, htrim, htrim'⟩
          · exact ⟨rest ++ [c], [], by simp, h, by simp,
              by simp [Cell.redacted_of_not_literal hc]⟩

end WellQuoted

/-! ### Texts -/

/-- A text, and the same text with the insides of its literals overwritten. -/
def TextRedacts (t t' : List Char) : Prop :=
  ∃ cells, WellQuoted cells ∧ cells.map Cell.char = t ∧
    (cells.map Cell.redacted).map Cell.char = t'

theorem stripBackwards_cons (c : Char) (cs : List Char) :
    stripBackwards (c :: cs) =
      if isTight c then (c :: cs, Markers.none)
      else ((stripBackwards cs).1, (stripBackwards cs).2.union ⟨c = '*', c = '?'⟩) := by
  have hnone (m : Markers) : m.union ⟨false, false⟩ = m := by
    simp [Markers.union]
  cases hblank : isBlank c with
  | true =>
      have hstar : c ≠ '*' := by
        rintro rfl
        exact absurd hblank (by decide)
      have hquestion : c ≠ '?' := by
        rintro rfl
        exact absurd hblank (by decide)
      simp [stripBackwards, isTight, hblank, hstar, hquestion, hnone]
  | false =>
      by_cases hstar : c = '*'
      · subst hstar
        simp [stripBackwards, isTight, hblank, Markers.union]
      · by_cases hquestion : c = '?'
        · subst hquestion
          simp [stripBackwards, isTight, hblank, Markers.union]
        · simp [stripBackwards, isTight, hblank, hstar, hquestion]

namespace TextRedacts

variable {t t' : List Char}

theorem isEmpty_eq (h : TextRedacts t t') : t.isEmpty = t'.isEmpty := by
  obtain ⟨cells, -, rfl, rfl⟩ := h
  simp

theorem trimStart (h : TextRedacts t t') :
    TextRedacts (ScriptOutline.trimStart t) (ScriptOutline.trimStart t') := by
  obtain ⟨cells, hq, rfl, rfl⟩ := h
  obtain ⟨-, kept, -, -, hkept, htrim, htrim'⟩ := hq.exists_trimStart
  exact ⟨kept, hkept, htrim.symm, htrim'.symm⟩

theorem trim (h : TextRedacts t t') :
    TextRedacts (ScriptOutline.trim t) (ScriptOutline.trim t') := by
  obtain ⟨cells, hq, ht, ht'⟩ := h.trimStart
  obtain ⟨kept, -, -, hkept, htrim, htrim'⟩ := hq.exists_trimEnd
  rw [ScriptOutline.trim, ScriptOutline.trim, ← ht, ← ht']
  exact ⟨kept, hkept, htrim.symm, htrim'.symm⟩

/-- Markers are taken off both texts, and they are the same. -/
theorem stripMarkers (h : TextRedacts t t') :
    (ScriptOutline.stripMarkers t).2 = (ScriptOutline.stripMarkers t').2 ∧
      TextRedacts (ScriptOutline.stripMarkers t).1 (ScriptOutline.stripMarkers t').1 := by
  obtain ⟨cells, hq, rfl, rfl⟩ := h
  induction cells using List.reverseRecOn with
  | nil => exact ⟨rfl, [], hq, rfl, rfl⟩
  | append_singleton rest c ih =>
      simp only [ScriptOutline.stripMarkers, List.map_append, List.map_singleton,
        List.reverse_append, List.reverse_singleton, List.singleton_append,
        stripBackwards_cons] at ih ⊢
      cases hc : c.isLiteral with
      | true =>
          have htight := hq.isTight_last hc
          rw [if_pos htight, if_pos (isTight_redacted htight)]
          exact ⟨rfl, rest ++ [c], hq, by simp, by simp⟩
      | false =>
          rw [Cell.redacted_of_not_literal hc]
          split
          · exact ⟨rfl, rest ++ [c], hq, by simp, by simp [Cell.redacted_of_not_literal hc]⟩
          · obtain ⟨hmarkers, hleft⟩ := ih (hq.init hc)
            exact ⟨by rw [hmarkers], hleft⟩

/-- An ampersand is taken off both texts, or neither has one. -/
theorem stripReference (h : TextRedacts t t') :
    (ScriptOutline.stripReference t).2 = (ScriptOutline.stripReference t').2 ∧
      TextRedacts (ScriptOutline.stripReference t).1 (ScriptOutline.stripReference t').1 := by
  obtain ⟨cells, hq, rfl, rfl⟩ := h
  cases cells with
  | nil => exact ⟨rfl, [], hq, rfl, rfl⟩
  | cons c rest =>
      have hself := hq.redacted_head
      have hall : TextRedacts (c.char :: rest.map Cell.char)
          (c.char :: (rest.map Cell.redacted).map Cell.char) :=
        ⟨c :: rest, hq, rfl, by simp [hself]⟩
      simp only [List.map_cons, hself]
      by_cases hand : c.char = '&'
      · have hc := hq.not_literal_head (by rw [hand]; decide)
        have hrest : TextRedacts (rest.map Cell.char) ((rest.map Cell.redacted).map Cell.char) :=
          ⟨rest, hq.tail hc, rfl, rfl⟩
        rw [hand]
        exact ⟨rfl, hrest.trimStart⟩
      · have hnot (cs : List Char) :
            ScriptOutline.stripReference (c.char :: cs) = (c.char :: cs, false) := by
          unfold ScriptOutline.stripReference
          split
          · next heq =>
              simp only [List.cons.injEq] at heq
              exact absurd heq.1 hand
          · rfl
        -- the first character is the same in both texts
        rw [hnot, hnot]
        exact ⟨rfl, hall⟩

end TextRedacts

/-! ### Default values -/

/-- How a reader splits a text and the same text redacted: at the same place, or neither. -/
inductive SplitsAlike (cells : List Cell) :
    Option (List Char × List Char) → Option (List Char × List Char) → Prop
  | apart (xs mark ys : List Cell) (hcells : cells = xs ++ mark ++ ys) (hne : mark ≠ [])
      (hmark : ∀ c ∈ mark, c.isLiteral = false) :
      SplitsAlike cells (some (xs.map Cell.char, ys.map Cell.char))
        (some ((xs.map Cell.redacted).map Cell.char, (ys.map Cell.redacted).map Cell.char))
  | whole : SplitsAlike cells none none

theorem SplitsAlike.cons {cells : List Cell} {r r' : Option (List Char × List Char)} (c : Cell)
    (h : SplitsAlike cells r r') :
    SplitsAlike (c :: cells) (r.map fun (before, after) => (c.char :: before, after))
      (r'.map fun (before, after) => (c.redacted.char :: before, after)) := by
  cases h with
  | apart xs mark ys hcells hne hmark =>
      exact .apart (c :: xs) mark ys (by rw [hcells]; rfl) hne hmark
  | whole => exact .whole

/-- A character that is not written over others stands where it stood. -/
theorem char_of_redacted {c : Cell} {char : Char} (h : c.redacted.char = char) (hx : char ≠ 'x') :
    c.char = char := by
  rcases c.redacted_char_cases with heq | ⟨-, heq⟩
  · rw [← heq, h]
  · rw [heq] at h
    exact absurd h.symm hx

/-- Where the first `:=` is code, no other one comes up in the redacted text. -/
theorem splitAssign?_redacted {cells : List Cell} (h : assignsInCode cells = true) :
    SplitsAlike cells (splitAssign? (cells.map Cell.char))
      (splitAssign? ((cells.map Cell.redacted).map Cell.char)) := by
  induction cells with
  | nil => exact .whole
  | cons c cells ih =>
      cases cells with
      | nil => exact .whole
      | cons d rest =>
          by_cases hmark : c.char = ':' ∧ d.char = '='
          · simp only [assignsInCode, hmark.1, hmark.2, decide_true, Bool.and_self, if_true,
              Bool.and_eq_true, Bool.not_eq_true'] at h
            simp only [List.map_cons, splitAssign?, Cell.redacted_of_not_literal h.1,
              Cell.redacted_of_not_literal h.2, hmark.1, hmark.2, decide_true, Bool.and_self,
              if_true]
            exact .apart [] [c, d] rest rfl (by simp) (by simp [h.1, h.2])
          · have hmark' : ¬(c.redacted.char = ':' ∧ d.redacted.char = '=') := fun hboth =>
              hmark ⟨char_of_redacted hboth.1 (by decide), char_of_redacted hboth.2 (by decide)⟩
            have hrest : assignsInCode (d :: rest) = true := by simpa [assignsInCode, hmark] using h
            have hcons := (ih hrest).cons c
            simp only [List.map_cons] at hcons
            simpa [splitAssign?, hmark, hmark'] using hcons

/-- Before the first quote both texts are the same, and there an equals sign is looked for. -/
theorem splitEquals?_redacted {c : Cell} {cells : List Cell} (before : Option Char)
    (h : (c :: cells).IsChain (Opens isQuoteMark)) (hc : c.isLiteral = false) :
    SplitsAlike cells (splitEquals? before (cells.map Cell.char))
      (splitEquals? before ((cells.map Cell.redacted).map Cell.char)) := by
  induction cells generalizing c before with
  | nil => exact .whole
  | cons d rest ih =>
      rw [List.isChain_cons_cons] at h
      simp only [List.map_cons, splitEquals?]
      cases hd : d.isLiteral with
      | true =>
          -- the reader gives up at the quote, before it sees what is inside
          have hmark := (h.1 hd).resolve_left (by simp [hc])
          rw [Cell.redacted_of_isQuoteMark hmark]
          simp only [isQuoteMark] at hmark
          rw [if_pos hmark, if_pos hmark]
          exact .whole
      | false =>
          -- what comes next is a quote or no part of a literal, and is not overwritten
          have hhead : ((rest.map Cell.redacted).map Cell.char).head? =
              (rest.map Cell.char).head? := by
            cases rest with
            | nil => rfl
            | cons e rest =>
                cases he : e.isLiteral with
                | false => simp [Cell.redacted_of_not_literal he]
                | true =>
                    have hopen := List.rel_of_isChain_cons_cons h.2
                    have hmark := (hopen he).resolve_left (by simp [hd])
                    simp [Cell.redacted_of_isQuoteMark hmark]
          rw [Cell.redacted_of_not_literal hd, hhead]
          split
          · exact .whole
          · split
            · exact .apart [] [d] rest rfl (by simp) (by simp [hd])
            · have hcons := (ih (some d.char) h.2 hd).cons d
              rw [Cell.redacted_of_not_literal hd] at hcons
              exact hcons

/-- The parts of a segment. -/
theorem splitDefault_redacts {cells : List Cell} (h : WellQuoted cells)
    (ha : assignsInCode cells = true) :
    TextRedacts (splitDefault (cells.map Cell.char)).1
        (splitDefault ((cells.map Cell.redacted).map Cell.char)).1 ∧
      Option.Rel TextRedacts (splitDefault (cells.map Cell.char)).2
        (splitDefault ((cells.map Cell.redacted).map Cell.char)).2 := by
  have hassign := splitAssign?_redacted ha
  have hequals := splitEquals?_redacted none h.starts rfl
  unfold splitDefault
  generalize splitAssign? (cells.map Cell.char) = r at hassign ⊢
  generalize splitAssign? ((cells.map Cell.redacted).map Cell.char) = r' at hassign ⊢
  cases hassign with
  | apart xs mark ys hcells hne hmark =>
      obtain ⟨hxs, hys⟩ := (hcells ▸ h).split_at hne hmark
      have hvalue : TextRedacts (ys.map Cell.char) ((ys.map Cell.redacted).map Cell.char) :=
        ⟨ys, hys, rfl, rfl⟩
      exact ⟨⟨xs, hxs, rfl, rfl⟩, .some hvalue.trim⟩
  | whole =>
      generalize splitEquals? none (cells.map Cell.char) = r at hequals ⊢
      generalize splitEquals? none ((cells.map Cell.redacted).map Cell.char) = r' at hequals ⊢
      cases hequals with
      | apart xs mark ys hcells hne hmark =>
          obtain ⟨hxs, hys⟩ := (hcells ▸ h).split_at hne hmark
          have hvalue : TextRedacts (ys.map Cell.char) ((ys.map Cell.redacted).map Cell.char) :=
            ⟨ys, hys, rfl, rfl⟩
          exact ⟨⟨xs, hxs, rfl, rfl⟩, .some hvalue.trim⟩
      | whole => exact ⟨⟨cells, h, rfl, rfl⟩, .none⟩

end ScriptOutline
