/-
**The harvest of comment lines.**

The documentation of a record is read off the comment lines above it, up to a line that holds no
comment.  An empty line within a block comment is such a line, so the part of the comment above it
is lost, and a blank that is invisible in the empty line brings it back.  Apart from this, blanks at
the ends of comment lines make no difference.

Main definitions:

* `commentTexts` — the texts of the comment lines directly above a line;
* `ReachesFurther` — the harvest goes on above an empty line that is filled, up to some text;
* `IsCommentBlock` — a block comment that takes up a range of lines;
* `gapInComment` — a comment with an empty line in it.

Main results:

* `exists_text_iff` — what it takes for a line with text to be harvested;
* `exists_texts_padded` — what the blanks add to the comment lines above a line;
* `flatten_commentTexts` — the documentation has the characters of these lines;
* `documentation_padded` — **which blanks make a difference to the documentation**;
* `gapInComment_cuts_documentation` — a blank that makes one.
-/

import ScriptOutline.Proofs.PaddedComments

set_option relaxedAutoImplicit false
set_option autoImplicit false

namespace ScriptOutline

/-! ### Comment lines above a line -/

/-- The texts of the comment lines directly above a line. -/
def commentTexts (s : Source) (n : Nat) : List (List Char) :=
  (commentLinesAbove s n).map fun l => cleanComment l.text

theorem commentLinesAbove_succ {s : Source} {n : Nat} {l : Line} (h : s.line? n = some l) :
    commentLinesAbove s (n + 1) =
      if l.isCommentOnly then commentLinesAbove s n ++ [l] else [] := by
  have hline : s.lines[n]? = some l := h
  simp only [commentLinesAbove, List.take_add_one, hline, Option.toList_some, List.reverse_append,
    List.reverse_singleton, List.singleton_append, List.takeWhile_cons]
  split
  · rw [List.reverse_cons]
  · rfl

/-- The comment lines above a line go on up to a line without a comment. -/
theorem commentTexts_succ {s : Source} {n : Nat} {l : Line} (h : s.line? n = some l) :
    commentTexts s (n + 1) =
      if l.isCommentOnly then commentTexts s n ++ [cleanComment l.text] else [] := by
  rw [commentTexts, commentLinesAbove_succ h]
  split
  · rw [List.map_append]
    rfl
  · rfl

/-- Some comment line above a line has text if all lines below one with text hold comments. -/
theorem exists_text_iff {s : Source} {n : Nat} (hn : n ≤ s.lineCount) :
    (∃ t ∈ commentTexts s n, t ≠ []) ↔
      ∃ first < n, s.HasText first ∧ ∀ k, first ≤ k → k < n → s.HoldsComment k := by
  induction n with
  | zero => simp [commentTexts, commentLinesAbove]
  | succ n ih =>
      obtain ⟨l, hl⟩ : ∃ l, s.line? n = some l := ⟨_, List.getElem?_eq_getElem hn⟩
      rw [commentTexts_succ hl]
      constructor
      · rintro ⟨t, ht, hne⟩
        split at ht
        · next honly =>
            have hlast : s.HoldsComment n := ⟨l, hl, honly⟩
            rcases List.mem_append.1 ht with ht | ht
            · obtain ⟨first, hfirst, htext, hall⟩ := (ih (by omega)).1 ⟨t, ht, hne⟩
              refine ⟨first, by omega, htext, fun k hk hkn => ?_⟩
              rcases Nat.lt_succ_iff_lt_or_eq.1 hkn with hlt | rfl
              · exact hall k hk hlt
              · exact hlast
            · obtain rfl := List.mem_singleton.1 ht
              refine ⟨n, by omega, ⟨l, hl, hne⟩, fun k hk hkn => ?_⟩
              obtain rfl : k = n := by omega
              exact hlast
        · simp at ht
      · rintro ⟨first, hfirst, htext, hall⟩
        obtain ⟨l', hl', honly⟩ := hall n (by omega) (by omega)
        obtain rfl := Option.some.inj (hl.symm.trans hl')
        rw [if_pos honly]
        rcases Nat.lt_succ_iff_lt_or_eq.1 hfirst with hlt | rfl
        · obtain ⟨t, ht, hne⟩ := (ih (by omega)).2
            ⟨first, hlt, htext, fun k hk hkn => hall k hk (by omega)⟩
          exact ⟨t, List.mem_append_left _ ht, hne⟩
        · obtain ⟨l', hl', hne⟩ := htext
          obtain rfl := Option.some.inj (hl.symm.trans hl')
          exact ⟨_, by simp, hne⟩

/-! ### What blanks add to the harvest -/

/--
Above a line there are comment lines up to one that has text, once the empty ones are filled, and
some between the two is filled.
-/
def ReachesFurther (pads : Nat → Nat) (text : List Char) (n : Nat) : Prop :=
  ∃ first filled, first < filled ∧ filled < n ∧ (Source.scan text).HasText first ∧
    IsFilled pads text filled ∧
      ∀ k, first ≤ k → k < n → (Source.scan text).HoldsComment k ∨ IsFilled pads text k

section

variable {pads : Nat → Nat} {text : List Char} {n : Nat}

/-- Below a filled line the harvest reaches further if any line above it has text. -/
theorem reachesFurther_succ_of_isFilled (h : IsFilled pads text n) :
    ReachesFurther pads text (n + 1) ↔ ∃ first < n, (Source.scan text).HasText first ∧
      ∀ k, first ≤ k → k < n → (Source.scan text).HoldsComment k ∨ IsFilled pads text k := by
  constructor
  · rintro ⟨first, filled, hfirst, hlt, htext, -, hall⟩
    exact ⟨first, by omega, htext, fun k hk hkn => hall k hk (by omega)⟩
  · rintro ⟨first, hfirst, htext, hall⟩
    refine ⟨first, n, hfirst, by omega, htext, h, fun k hk hkn => ?_⟩
    rcases Nat.lt_succ_iff_lt_or_eq.1 hkn with hlt | rfl
    · exact hall k hk hlt
    · exact Or.inr h

/-- Below a line that held a comment before, it reaches further if it does so above that line. -/
theorem reachesFurther_succ_of_holdsComment (h : (Source.scan text).HoldsComment n) :
    ReachesFurther pads text (n + 1) ↔ ReachesFurther pads text n := by
  constructor
  · rintro ⟨first, filled, hfirst, hlt, htext, hfilled, hall⟩
    have hne : filled ≠ n := by
      rintro rfl
      exact hfilled.not_holdsComment h
    exact ⟨first, filled, hfirst, by omega, htext, hfilled, fun k hk hkn => hall k hk (by omega)⟩
  · rintro ⟨first, filled, hfirst, hlt, htext, hfilled, hall⟩
    refine ⟨first, filled, hfirst, by omega, htext, hfilled, fun k hk hkn => ?_⟩
    rcases Nat.lt_succ_iff_lt_or_eq.1 hkn with hlt | rfl
    · exact hall k hk hlt
    · exact Or.inl h

/-- Below any other line it stops. -/
theorem not_reachesFurther_succ (hholds : ¬(Source.scan text).HoldsComment n)
    (hfilled : ¬IsFilled pads text n) : ¬ReachesFurther pads text (n + 1) := by
  rintro ⟨first, filled, hfirst, hlt, -, -, hall⟩
  exact (hall n (by omega) (by omega)).elim hholds hfilled

variable (pads text)

/-- What the blanks add to the comment lines above a line. -/
theorem exists_texts_padded (hn : n ≤ (Source.scan text).lineCount) :
    ∃ extra, commentTexts (Source.scan (paddedText pads text)) n =
        extra ++ commentTexts (Source.scan text) n ∧
      ((∃ t ∈ extra, t ≠ []) ↔ ReachesFurther pads text n) := by
  induction n with
  | zero => exact ⟨[], by simp [commentTexts, commentLinesAbove], by simp [ReachesFurther]⟩
  | succ n ih =>
      obtain ⟨l, hl⟩ : ∃ l, (Source.scan text).line? n = some l := ⟨_, List.getElem?_eq_getElem hn⟩
      have hl' := line?_paddedText pads text n
      rw [hl, Option.map_some] at hl'
      have hholds := @holdsComment_paddedText pads text n hn
      rw [Source.holdsComment_iff hl', Source.holdsComment_iff hl] at hholds
      rw [commentTexts_succ hl, commentTexts_succ hl', cleanComment_padded]
      by_cases hfilled : IsFilled pads text n
      · -- What is above this line was no part of the harvest before, and now all of it is.
        have hnot := (Source.holdsComment_iff hl).not.1 hfilled.not_holdsComment
        have hempty : cleanComment l.text = [] := by
          rw [Line.text, hfilled.cells hl]
          rfl
        have hcount : n ≤ (Source.scan (paddedText pads text)).lineCount :=
          le_of_lt (List.getElem?_eq_some_iff.1 hl').1
        rw [if_pos (hholds.2 (Or.inr hfilled)), if_neg hnot, hempty]
        refine ⟨_, (List.append_nil _).symm, ?_⟩
        have hsome : (∃ t ∈ commentTexts (Source.scan (paddedText pads text)) n ++ [[]], t ≠ []) ↔
            ∃ t ∈ commentTexts (Source.scan (paddedText pads text)) n, t ≠ [] := by
          simp [or_and_right]
        rw [hsome, exists_text_iff hcount, reachesFurther_succ_of_isFilled hfilled]
        simp only [hasText_paddedText]
        refine exists_congr fun first => and_congr_right fun _ => and_congr_right fun _ =>
          forall_congr' fun k => forall_congr' fun _ => forall_congr' fun hk => ?_
        exact holdsComment_paddedText (by omega)
      · have hsame : (l.padded (commentPads pads text n)).isCommentOnly = l.isCommentOnly := by
          rw [Bool.eq_iff_iff, hholds, or_iff_left hfilled]
        rw [hsame]
        cases honly : l.isCommentOnly with
        | true =>
            obtain ⟨extra, hextra, hreaches⟩ := ih (by omega)
            refine ⟨extra, by rw [if_pos rfl, if_pos rfl, hextra, List.append_assoc], ?_⟩
            rw [hreaches,
              reachesFurther_succ_of_holdsComment ((Source.holdsComment_iff hl).2 honly)]
        | false =>
            have hnot : ¬(Source.scan text).HoldsComment n := by
              rw [Source.holdsComment_iff hl, honly]
              exact Bool.noConfusion
            refine ⟨[], rfl, ?_⟩
            simp [not_reachesFurther_succ hnot hfilled]

end

/-! ### Documentation -/

theorem dropDocMarks_suffix (cs : List Char) : dropDocMarks cs <:+ cs := by
  fun_induction dropDocMarks cs with
  | case1 rest ih => exact ih.trans ⟨['/', '*', '*'], rfl⟩
  | case2 cs _ => exact List.suffix_refl _

theorem dropBlockMarks_suffix (cs : List Char) : dropBlockMarks cs <:+ cs := by
  fun_induction dropBlockMarks cs with
  | case1 rest ih => exact ih.trans ⟨['/', '*'], rfl⟩
  | case2 cs _ => exact List.suffix_refl _

theorem dropEndMarks_subset (cs : List Char) : dropEndMarks cs ⊆ cs := by
  intro c hc
  exact List.mem_reverse.1 ((dropBlockMarks_suffix cs.reverse).subset (List.mem_reverse.1 hc))

theorem dropStar_suffix (cs : List Char) : dropStar cs <:+ cs := by
  unfold dropStar
  split
  · exact List.suffix_cons _ _
  · exact List.suffix_refl _

theorem trimStart_subset (cs : List Char) : trimStart cs ⊆ cs :=
  (List.dropWhile_suffix _).subset

theorem trim_subset (cs : List Char) : trim cs ⊆ cs := fun _ hc =>
  trimStart_subset cs ((List.rdropWhile_prefix _ _).subset hc)

/-- The text of a comment line is made of characters of the line. -/
theorem cleanComment_subset (line : List Char) : cleanComment line ⊆ line := by
  simp only [cleanComment]
  split
  · intro c hc
    exact trim_subset _ ((List.dropWhile_suffix _).subset (trim_subset _ hc))
  · intro c hc
    refine trim_subset _ ((dropDocMarks_suffix _).subset ((dropBlockMarks_suffix _).subset ?_))
    exact dropEndMarks_subset _ (trimStart_subset _ ((dropStar_suffix _).subset (trim_subset _ hc)))

theorem flatten_dropWhile_isEmpty (texts : List (List Char)) :
    (texts.dropWhile List.isEmpty).flatten = texts.flatten := by
  induction texts with
  | nil => rfl
  | cons t rest ih =>
      cases t with
      | nil => simpa using ih
      | cons c t => rfl

/-- Without its empty ends a list of texts has the same characters. -/
theorem flatten_dropOuterEmpty (texts : List (List Char)) :
    (dropOuterEmpty texts).flatten = texts.flatten := by
  have hend (texts : List (List Char)) :
      (texts.reverse.dropWhile List.isEmpty).reverse.flatten = texts.flatten := by
    induction texts using List.reverseRecOn with
    | nil => rfl
    | append_singleton texts t ih =>
        cases t with
        | nil => simpa using ih
        | cons c t => simp
  rw [dropOuterEmpty, hend, flatten_dropWhile_isEmpty]

theorem dropOuterEmpty_append_of_empty {extra : List (List Char)} (h : ∀ t ∈ extra, t = [])
    (texts : List (List Char)) : dropOuterEmpty (extra ++ texts) = dropOuterEmpty texts := by
  have hempty : ∀ t ∈ extra, t.isEmpty = true := fun t ht => by rw [h t ht]; rfl
  rw [dropOuterEmpty, List.dropWhile_append_of_pos hempty, dropOuterEmpty]

theorem filter_intercalate {texts : List (List Char)} (h : ∀ t ∈ texts, '\n' ∉ t) :
    (List.intercalate ['\n'] texts).filter (· ≠ '\n') = texts.flatten := by
  have hkeep {t : List Char} (ht : '\n' ∉ t) : t.filter (· ≠ '\n') = t := by
    rw [List.filter_eq_self]
    intro c hc
    exact decide_eq_true fun heq => ht (heq ▸ hc)
  induction texts with
  | nil => rfl
  | cons t rest ih =>
      obtain ⟨ht, hrest⟩ := List.forall_mem_cons.1 h
      cases rest with
      | nil => simpa using hkeep ht
      | cons u rest =>
          rw [List.intercalate_cons_cons, List.filter_append, List.filter_append, hkeep ht,
            ih hrest]
          simp

/-- The documentation of a line has the characters of the comment lines above it. -/
theorem flatten_commentTexts {s : Source} (hs : s.HasNoBreaks) (n : Nat) :
    ((documentationAbove? s n).elim [] fun doc => doc.toList.filter (· ≠ '\n')) =
      (commentTexts s n).flatten := by
  have hbreaks : ∀ t ∈ dropOuterEmpty (commentTexts s n), '\n' ∉ t := by
    intro t ht hmem
    have hchar : '\n' ∈ (dropOuterEmpty (commentTexts s n)).flatten :=
      List.mem_flatten.2 ⟨t, ht, hmem⟩
    rw [flatten_dropOuterEmpty] at hchar
    obtain ⟨t', ht', hmem'⟩ := List.mem_flatten.1 hchar
    obtain ⟨l, hl, rfl⟩ := List.mem_map.1 ht'
    have hline : l ∈ s.lines :=
      List.mem_of_mem_take (List.mem_reverse.1
        ((List.takeWhile_prefix _).subset (List.mem_reverse.1 hl)))
    exact hs l hline (cleanComment_subset _ hmem')
  rw [← flatten_dropOuterEmpty, documentationAbove?, ← commentTexts]
  split
  · next hempty =>
      rw [List.isEmpty_iff.1 hempty]
      rfl
  · rw [Option.elim_some, String.toList_ofList, filter_intercalate hbreaks]

/-- The comment above a line changes exactly if it reaches further. -/
theorem documentationAbove?_padded (pads : Nat → Nat) (text : List Char) {n : Nat}
    (hn : n ≤ (Source.scan text).lineCount) :
    documentationAbove? (Source.scan (paddedText pads text)) n =
        documentationAbove? (Source.scan text) n ↔ ¬ReachesFurther pads text n := by
  obtain ⟨extra, hextra, hreaches⟩ := exists_texts_padded pads text hn
  rw [← hreaches]
  constructor
  · intro hsame hsome
    have hflat := flatten_commentTexts (Source.hasNoBreaks_scan (paddedText pads text)) n
    rw [hsame, flatten_commentTexts (Source.hasNoBreaks_scan text), hextra, List.flatten_append,
      List.self_eq_append_left] at hflat
    obtain ⟨t, ht, hne⟩ := hsome
    exact hne (List.flatten_eq_nil_iff.1 hflat t ht)
  · intro hnone
    have hempty : ∀ t ∈ extra, t = [] := fun t ht => by_contra fun hne => hnone ⟨t, ht, hne⟩
    have htexts : dropOuterEmpty (commentTexts (Source.scan (paddedText pads text)) n) =
        dropOuterEmpty (commentTexts (Source.scan text) n) := by
      rw [hextra, dropOuterEmpty_append_of_empty hempty]
    rw [commentTexts, commentTexts] at htexts
    simp only [documentationAbove?, htexts]

/-! ### Block comments above a declaration -/

/-- A block comment takes up the lines from one up to another, but for blanks around it. -/
structure IsCommentBlock (text : List Char) (first stop : Nat) : Prop where
  opens : (Source.scan text).HoldsComment first
  goes_on : ∀ k, first ≤ k → k + 1 < stop → endsInComment text k = true
  only : ∀ k l, first < k → k < stop → (Source.scan text).line? k = some l →
    ∀ c ∈ l.cells, c.isComment = true ∨ isBlank c.char = true

/-- A line of a block comment holds some of it unless it is empty. -/
theorem IsCommentBlock.holdsComment_iff {text : List Char} {first stop k : Nat}
    (h : IsCommentBlock text first stop) (hfirst : first < k) (hstop : k < stop)
    (hk : k < (linesOf text).length) :
    (Source.scan text).HoldsComment k ↔ (linesOf text)[k]? ≠ some [] := by
  have hline := List.getElem?_eq_getElem hk
  obtain ⟨depth, hl, -⟩ := @getElem?_readLines .code 0 k (linesOf text) _ hline
  have hmode : modeAfter .code ((linesOf text).take k) = .blockComment := by
    obtain ⟨j, rfl⟩ := Nat.exists_eq_add_one_of_ne_zero (Nat.ne_zero_of_lt hfirst)
    exact of_decide_eq_true (h.goes_on j (by omega) hstop)
  rw [hmode] at hl
  replace hl : (Source.scan text).line? k =
    some ⟨(Mode.blockComment.read (linesOf text)[k]).1, depth⟩ := hl
  have hall := h.only k _ hfirst hstop hl
  rw [Source.holdsComment_iff hl, hline, ne_eq, Option.some.injEq]
  cases hchars : (linesOf text)[k] with
  | nil => simp [Line.isCommentOnly, Mode.read, Mode.readFrom]
  | cons c rest =>
      rw [hchars] at hall
      have hregion : (Mode.blockComment.step true c rest.head?).1 = .blockComment := by
        simp only [Mode.step]
        split <;> rfl
      have hany : (Mode.blockComment.read (c :: rest)).1.any Cell.isComment = true := by
        simp [Mode.read, Mode.readFrom, hregion, Cell.isComment, Region.isComment]
      simp [Line.isCommentOnly, hany, List.all_eq_true]
      exact hall

theorem prefix_takeWhile_iff {α : Type} {p : α → Bool} {xs ys : List α} (h : xs <+: ys) :
    xs <+: ys.takeWhile p ↔ ∀ x ∈ xs, p x = true := by
  constructor
  · intro hstart x hx
    exact List.mem_takeWhile_imp (hstart.subset hx)
  · intro hall
    obtain ⟨rest, rfl⟩ := h
    rw [List.takeWhile_append_of_pos hall]
    exact List.prefix_append _ _

/-- Lines are among the comment lines above a line if all of them hold comments. -/
theorem lines_suffix_commentLinesAbove_iff (s : Source) {first stop : Nat}
    (hstop : stop ≤ s.lineCount) :
    (s.lines.take stop).drop first <:+ commentLinesAbove s stop ↔
      ∀ k, first ≤ k → k < stop → s.HoldsComment k := by
  rw [commentLinesAbove, ← List.reverse_prefix, List.reverse_reverse,
    prefix_takeWhile_iff (List.reverse_prefix.2 (List.drop_suffix _ _))]
  simp only [List.mem_reverse]
  simp only [List.mem_iff_getElem?, List.getElem?_drop, List.getElem?_take]
  constructor
  · intro hall k hfirst hk
    obtain ⟨l, hl⟩ : ∃ l, s.line? k = some l :=
      ⟨_, List.getElem?_eq_getElem (lt_of_lt_of_le hk hstop)⟩
    refine ⟨l, hl, hall _ ⟨k - first, ?_⟩⟩
    rw [show first + (k - first) = k by omega, if_pos hk]
    exact hl
  · rintro hall l ⟨i, hl⟩
    split at hl
    · next hlt =>
        exact (Source.holdsComment_iff hl).1 (hall (first + i) (by omega) hlt)
    · simp at hl

/--
**Blanks at the ends of comment lines.**  Blanks behind lines that end in a block comment leave the
records of a text at their places, and the documentation of each as it is, unless they fill an empty
line between comment with text and the record.  For a block comment is harvested from its first to
its last line exactly if none of its lines is empty.
-/
theorem documentation_padded (pads : Nat → Nat) (text : List Char) (version : Int32) :
    List.Forall₂ (fun r r' => r'.span.start = r.span.start ∧
        (r'.documentation = r.documentation ↔ ¬ReachesFurther pads text r.span.start.line))
      (routinesOf text version) (routinesOf (paddedText pads text) version) ∧
    ∀ first stop, stop ≤ (linesOf text).length → IsCommentBlock text first stop →
      (((Source.scan text).lines.take stop).drop first <:+
          commentLinesAbove (Source.scan text) stop ↔
        ∀ k, first < k → k < stop → (linesOf text)[k]? ≠ some []) := by
  constructor
  · have hplaces : List.Forall₂ (fun d d' => d.place = d'.place) (declarations (Source.scan text))
        (declarations (Source.scan (paddedText pads text))) := by
      apply List.forall₂_map_right_iff.1
      apply List.forall₂_map_left_iff.1
      rw [List.forall₂_eq_eq_eq]
      exact (declarations_extends (extends_paddedText pads text)).symm
    have hlines : ∀ d ∈ declarations (Source.scan text),
        d.start.line ≤ (Source.scan text).lineCount := by
      intro d hd
      obtain ⟨-, hfirst⟩ := declaration?_start (mem_declarationsFrom hd).1
      obtain ⟨l, hl, -⟩ := Option.bind_eq_some_iff.1 hfirst
      exact le_of_lt (List.getElem?_eq_some_iff.1 hl).1
    rw [routinesOf, routinesOf, assemble_eq, assemble_eq, List.forall₂_map_left_iff,
      List.forall₂_map_right_iff]
    refine ((List.forall₂_and_left _ _).2 ⟨hlines, hplaces⟩).imp ?_
    rintro d d' ⟨hline, hplace⟩
    have hstart : d'.start = d.start := congrArg Prod.fst hplace.symm
    refine ⟨hstart, ?_⟩
    have hdoc := documentationAbove?_padded pads text hline
    simp only [recordOf, routineOf, Declaration.span, hstart]
    exact hdoc
  · intro first stop hstop hblock
    rw [lines_suffix_commentLinesAbove_iff _ (by rwa [lineCount_scan])]
    constructor
    · intro hall k hfirst hk
      exact (hblock.holdsComment_iff hfirst hk (by omega)).1 (hall k (le_of_lt hfirst) hk)
    · intro hnone k hfirst hk
      rcases Nat.lt_or_eq_of_le hfirst with hlt | rfl
      · exact (hblock.holdsComment_iff hlt hk (by omega)).2 (hnone k hlt hk)
      · exact hblock.opens

/-- A function below a block comment that has an empty line in it. -/
def gapInComment : List Char :=
  "/* a\n\nb */\nF() \x7b\n\x7d".toList

/-- The three lines are a block comment, but the first of them is not harvested. -/
theorem documentation_padded_gapInComment :
    IsCommentBlock gapInComment 0 3 ∧
      ¬((Source.scan gapInComment).lines.take 3).drop 0 <:+
        commentLinesAbove (Source.scan gapInComment) 3 := by
  have hgoes : ∀ k < 2, endsInComment gapInComment k = true := by decide +kernel
  have honly : ∀ k < 3, ((Source.scan gapInComment).line? k).all (fun l =>
      l.cells.all fun c => c.isComment || isBlank c.char) = true := by decide +kernel
  have hblock : IsCommentBlock gapInComment 0 3 := by
    refine ⟨⟨_, rfl, by decide +kernel⟩, fun k _ hk => hgoes k (by omega), ?_⟩
    intro k l _ hk hl c hc
    have hall := honly k hk
    rw [hl, Option.all_some] at hall
    simpa using List.all_eq_true.1 hall c hc
  refine ⟨hblock, fun hsuffix => ?_⟩
  have hnone := ((documentation_padded (fun _ => 0) gapInComment 0).2 0 3 (by decide) hblock).1
    hsuffix 1 (by omega) (by omega)
  exact hnone (by decide +kernel)

/-- One blank in the empty line makes the first line of the comment part of the documentation. -/
theorem gapInComment_cuts_documentation :
    paddedText (fun _ => 1) gapInComment = "/* a \n \nb */\nF() \x7b\n\x7d".toList ∧
      (routinesOf gapInComment 0).map Routine.documentation = [some "b"] ∧
      (routinesOf (paddedText (fun _ => 1) gapInComment) 0).map Routine.documentation =
        [some "a\n\nb"] := by
  simp only [routinesOf, assemble_eq]
  decide +kernel

end ScriptOutline
