/-
**Which assignments a line takes up.**

On a line without a declaration every assignment to a name is taken up, but for one whose name
directly follows a member's dot, a closing bracket, a percent sign or an alphanumeric character.
On a declaration line only the names of chains are, and an assignment inside of an initializer is
not.

Main definitions:

* `AssignsAt` — a text assigns to a whole name at a column;
* `StartsAfresh` — what is left of a text stands behind a character that no name runs into;
* `IsDeclaredAt` — only links lead to a column from the start of a piece of a declaration line;
* `IsTakenUp` — an assignment at a column is taken up;
* `IsFreeBefore` — nothing before a column makes the name there a part of something else.

Main results:

* `exists_mem_assignedNames` — assignments are found on a line without a declaration;
* `admitsName_of_mem_impliedOn` — what comes in on such a line may start where it does;
* `isDeclaredAt_of_mem_declaredOn?`, `exists_mem_of_isDeclaredAt` — what a declaration line takes
  up;
* `exists_occurrence_of_isTakenUp`, `isTakenUp_of_isOf` — an assignment comes in just if it is taken
  up.
-/

import ScriptOutline.Proofs.AssignmentChains
import ScriptOutline.Proofs.VariablePlaces

set_option relaxedAutoImplicit false
set_option autoImplicit false

namespace ScriptOutline

/-- A text assigns to a name at a column, and no word runs into the name. -/
def AssignsAt (cs name : List Char) (column : Nat) : Prop :=
  ∃ before gap after, cs = before ++ (name ++ (gap ++ ':' :: '=' :: after)) ∧
    before.length = column ∧ isIdentifier name = true ∧ (∀ c ∈ gap, isBlank c = true) ∧
    ∀ c ∈ before.getLast?, isWordChar c = false

/-! ### Lines without a declaration -/

/-- An assignment at the start of a text is found, if the character before admits a name. -/
theorem exists_mem_assignmentAt {prev : Option Char} {name gap : List Char}
    (hname : isIdentifier name = true) (hgap : ∀ c ∈ gap, isBlank c = true)
    (hprev : admitsName prev = true) (column : Nat) (after : List Char) :
    ∃ m ∈ assignmentAt prev column (name ++ (gap ++ ':' :: '=' :: after)),
      m.name = name ∧ m.column = column := by
  have hread := identifier?_append_of_identifier hname
    (not_isWordChar_head_of_mark hgap ('=' :: after))
  refine ⟨⟨name, column, true, valueHint? after⟩, ?_, rfl, rfl⟩
  simp only [assignmentAt, hread, afterAssign?_mark hgap, hprev, if_true, List.mem_singleton]

/-- Every assignment in the rest of a line is found, unless the character before bars it. -/
theorem exists_mem_assignmentsFrom {inName : Bool} {prev : Option Char}
    {before name gap : List Char} (hname : isIdentifier name = true)
    (hgap : ∀ c ∈ gap, isBlank c = true) (column : Nat) (after : List Char)
    (hin : inName = true → prev.any isWordChar = true)
    (hword : (before.getLast?.or prev).any isWordChar = false)
    (hprev : admitsName (before.getLast?.or prev) = true) :
    ∃ m ∈ assignmentsFrom inName prev column (before ++ (name ++ (gap ++ ':' :: '=' :: after))),
      m.name = name ∧ m.column = column + before.length := by
  induction before generalizing inName prev column with
  | nil =>
      -- the walk is not inside of a name, since the character before is no part of one
      have hout : inName = false := by
        cases inName with
        | false => rfl
        | true => exact absurd (hin rfl) (by simpa using hword)
      obtain ⟨m, hm, hmname, hmcolumn⟩ :=
        exists_mem_assignmentAt hname hgap hprev column after
      obtain ⟨c, rest, rfl, -, -⟩ := exists_cons_of_isIdentifier hname
      refine ⟨m, ?_, hmname, hmcolumn⟩
      simp only [List.nil_append, List.cons_append, assignmentsFrom, hout, Bool.false_and,
        Bool.false_eq_true, if_false]
      exact List.mem_append_left _ hm
  | cons c before ih =>
      rw [getLast?_cons_or] at hword hprev
      have hcolumn : column + (c :: before).length = column + 1 + before.length := by
        rw [List.length_cons]
        omega
      rw [List.cons_append, hcolumn]
      simp only [assignmentsFrom]
      split
      · next hinside =>
          have hc : isWordChar c = true := (Bool.and_eq_true_iff.1 hinside).2
          exact ih (column + 1) (fun _ => hc) hword hprev
      · obtain ⟨m, hm, hfound⟩ :=
          ih (column + 1) isWordChar_of_isIdentifierStart hword hprev
        exact ⟨m, List.mem_append_right _ hm, hfound⟩

/-- The assignments of a line are found, unless the character before bars them. -/
theorem exists_mem_assignedNames {cs name : List Char} {k : Nat} (h : AssignsAt cs name k)
    (hprev : admitsName (cs.take k).getLast? = true) :
    ∃ m ∈ assignedNames cs, m.name = name ∧ m.column = k := by
  obtain ⟨before, gap, after, rfl, rfl, hname, hgap, hword⟩ := h
  rw [List.take_left'  rfl] at hprev
  have hword' : (before.getLast?.or none).any isWordChar = false := by
    rw [Option.or_none]
    cases hlast : before.getLast? with
    | none => rfl
    | some c => exact hword c hlast
  have hin : false = true → (none : Option Char).any isWordChar = true := by simp
  obtain ⟨m, hm, hfound, hcolumn⟩ :=
    exists_mem_assignmentsFrom hname hgap 0 after hin hword' (by rwa [Option.or_none])
  exact ⟨m, hm, hfound, by rw [hcolumn, Nat.zero_add]⟩

/-- An assignment that is found follows a character that admits a name. -/
theorem admitsName_of_mem_assignmentsFrom {inName : Bool} {prev : Option Char} {column : Nat}
    {cs : List Char} {m : Mention} (h : m ∈ assignmentsFrom inName prev column cs) :
    admitsName ((cs.take (m.column - column)).getLast?.or prev) = true := by
  obtain ⟨before, rest, rfl, hm⟩ := exists_of_mem_assignmentsFrom h
  obtain ⟨name, after, value, -, -, hadmits, rfl⟩ := exists_of_mem_assignmentAt hm
  rwa [Nat.add_sub_cancel_left, List.take_left]

/-! ### Loops and caught errors -/

/-- What is left of a text stands behind a character that no name runs into. -/
def StartsAfresh (cs rest : List Char) : Prop :=
  ∃ before c, cs = before ++ c :: rest ∧ admitsName (some c) = true

theorem admitsName_of_isBlank {c : Char} (h : isBlank c = true) : admitsName (some c) = true := by
  have hne {d : Char} (hd : isBlank d = false) : c ≠ d := by
    rintro rfl
    rw [h] at hd
    exact Bool.noConfusion hd
  simp [admitsName, not_isAlphanumeric_of_isBlank h, hne (by decide : isBlank '.' = false),
    hne (by decide : isBlank '%' = false), hne (by decide : isBlank ']' = false),
    hne (by decide : isBlank '_' = false)]

namespace StartsAfresh

variable {cs inner rest : List Char}

theorem of_suffix (h : inner <:+ cs) (hrest : StartsAfresh inner rest) : StartsAfresh cs rest := by
  obtain ⟨front, rfl⟩ := h
  obtain ⟨before, c, rfl, hc⟩ := hrest
  exact ⟨front ++ before, c, by simp, hc⟩

/-- Blanks may follow. -/
theorem trimStart (h : StartsAfresh cs rest) : StartsAfresh cs (ScriptOutline.trimStart rest) := by
  obtain ⟨before, c, rfl, hc⟩ := h
  obtain ⟨blanks, hrest, hblanks⟩ := trimStart_spec rest
  rcases List.eq_nil_or_concat blanks with rfl | ⟨init, b, rfl⟩
  · exact ⟨before, c, by rw [← List.nil_append (ScriptOutline.trimStart rest), ← hrest], hc⟩
  · refine ⟨before ++ c :: init, b, ?_, admitsName_of_isBlank (hblanks b (by simp))⟩
    conv_lhs => rw [hrest]
    simp

/-- What follows blanks stands behind one. -/
theorem of_afterBlanks? (h : afterBlanks? cs = some rest) : StartsAfresh cs rest := by
  cases cs with
  | nil => simp [afterBlanks?] at h
  | cons c tail =>
      simp only [afterBlanks?] at h
      split at h
      · next hc =>
          rw [Option.some.injEq] at h
          rw [← h]
          exact trimStart ⟨[], c, rfl, admitsName_of_isBlank hc⟩
      · simp at h

/-- A loop's first name stands behind a blank or a parenthesis. -/
theorem of_afterFor? (h : afterFor? cs = some rest) : StartsAfresh cs rest := by
  unfold afterFor? at h
  split at h
  · simp at h
  · next after hword =>
      have hafter : after <:+ cs := (afterWord?_suffix hword).trans (trimStart_suffix cs)
      split at h
      · next inner hinner =>
          rw [Option.some.injEq] at h
          rw [← h]
          refine of_suffix ((trimStart_suffix after).trans hafter) (trimStart ?_)
          exact ⟨[], '(', hinner, by decide +kernel⟩
      · exact of_suffix hafter (of_afterBlanks? h)

/-- The name of a mention stands behind a character that admits it. -/
theorem admitsName_before {name : List Char} (h : StartsAfresh cs (name ++ rest)) :
    admitsName (cs.take (Mention.before cs.length name rest).column).getLast? = true := by
  obtain ⟨before, c, rfl, hc⟩ := h
  have hcolumn : (Mention.before (before ++ c :: (name ++ rest)).length name rest).column =
      (before ++ [c]).length := by
    simp only [Mention.before, List.length_append, List.length_cons, List.length_nil]
    omega
  have hsplit : before ++ c :: (name ++ rest) = before ++ [c] ++ (name ++ rest) := by simp
  rw [hcolumn, hsplit, List.take_left' rfl, List.getLast?_concat]
  exact hc

end StartsAfresh

theorem admitsName_of_mem_loopNames {cs : List Char} {m : Mention} (h : m ∈ loopNames cs) :
    admitsName (cs.take m.column).getLast? = true := by
  unfold loopNames at h
  split at h
  · simp at h
  · next first rest hfirst =>
      obtain ⟨inner, hfor, hname⟩ := Option.bind_eq_some_iff.1 hfirst
      have hinner := identifier?_eq_some hname
      have hafresh : StartsAfresh cs (first ++ rest) := hinner ▸ StartsAfresh.of_afterFor? hfor
      split at h
      · next more hmore =>
          split at h
          · simp at h
          · next second after hsecond =>
              split at h
              · rcases List.mem_cons.1 h with rfl | h
                · exact hafresh.admitsName_before
                · rw [List.mem_singleton.1 h]
                  have hrest : rest <:+ cs :=
                    (show rest <:+ inner from ⟨first, hinner.symm⟩).trans (afterFor?_suffix hfor)
                  have hcomma : StartsAfresh (trimStart rest) (trimStart more) :=
                    StartsAfresh.trimStart ⟨[], ',', hmore, by decide +kernel⟩
                  rw [identifier?_eq_some hsecond] at hcomma
                  exact (hcomma.of_suffix ((trimStart_suffix rest).trans hrest)).admitsName_before
              · simp at h
      · split at h
        · rw [List.mem_singleton.1 h]
          exact hafresh.admitsName_before
        · simp at h

theorem startsAfresh_of_lastNameAfterAs? {inWord : Bool} {cs name rest : List Char}
    (h : lastNameAfterAs? inWord cs = some (name, rest)) : StartsAfresh cs (name ++ rest) := by
  induction cs generalizing inWord with
  | nil => simp [lastNameAfterAs?] at h
  | cons c tail ih =>
      simp only [lastNameAfterAs?, Option.orElse_eq_orElse, Option.orElse_eq_or] at h
      rcases Option.or_eq_some_iff.1 h with h | ⟨-, h⟩
      · exact (ih h).of_suffix (List.suffix_cons c tail)
      · split at h
        · simp at h
        · obtain ⟨inner, hbefore, hname⟩ := Option.bind_eq_some_iff.1 h
          obtain ⟨after, hword, hblanks⟩ := Option.bind_eq_some_iff.1 hbefore
          rw [← identifier?_eq_some hname]
          exact (StartsAfresh.of_afterBlanks? hblanks).of_suffix (afterWord?_suffix hword)

theorem admitsName_of_mem_caughtNames {cs : List Char} {m : Mention} (h : m ∈ caughtNames cs) :
    admitsName (cs.take m.column).getLast? = true := by
  unfold caughtNames at h
  split at h
  · simp at h
  · next name rest hfound =>
      obtain ⟨after, hcatch, hname⟩ := Option.bind_eq_some_iff.1 hfound
      rw [List.mem_singleton.1 h]
      exact ((startsAfresh_of_lastNameAfterAs? hname).of_suffix
        (afterCatch?_suffix hcatch)).admitsName_before

/-- What comes in on a line without a declaration follows a character that admits a name. -/
theorem admitsName_of_mem_impliedOn {cs : List Char} {m : Mention} (h : m ∈ impliedOn cs) :
    admitsName (cs.take m.column).getLast? = true := by
  unfold impliedOn at h
  rcases List.mem_append.1 h with h | h
  · rcases List.mem_append.1 h with h | h
    · exact admitsName_of_mem_loopNames h
    · exact admitsName_of_mem_caughtNames h
  · have hadmits := admitsName_of_mem_assignmentsFrom h
    rwa [Nat.sub_zero, Option.or_none] at hadmits

/-! ### Declaration lines -/

/-- Only links and blanks lead to a column from the keyword or from a comma outside of brackets. -/
def IsDeclaredAt (cs : List Char) (column : Nat) : Prop :=
  ∃ (scope : Scope) (rest left blanks after : List Char) (links : List Link),
    scopeOf? cs = some (scope, rest) ∧
      rest = left ++ (links.flatMap Link.text ++ (blanks ++ after)) ∧ EndsPiece 0 left ∧
      (∀ c ∈ blanks, isBlank c = true) ∧ column + after.length = cs.length

/-- The names of a declaration line are those to which only links and blanks lead. -/
theorem isDeclaredAt_of_mem_declaredOn? {cs : List Char} {scope : Scope} {mentions : List Mention}
    (h : declaredOn? cs = some (scope, mentions)) {m : Mention} (hm : m ∈ mentions) :
    IsDeclaredAt cs m.column := by
  obtain ⟨⟨scope', rest⟩, hscope, heq⟩ := Option.map_eq_some_iff.1 h
  obtain ⟨-, rfl⟩ := Prod.mk.inj heq
  obtain ⟨⟨column, piece⟩, hpiece, hm⟩ := List.mem_flatMap.1 hm
  obtain ⟨⟨name, k⟩, hname, rfl⟩ := List.mem_map.1 hm
  obtain ⟨left, tail, hrest, hcolumn, hleft, -⟩ := exists_endsPiece hpiece
  obtain ⟨links, blanks, after, hlinks, hblanks, hk⟩ := exists_links_of_mem_readChain hname
  refine ⟨scope', rest, left, blanks, after ++ tail, links, hscope, ?_, hleft, hblanks, ?_⟩
  · rw [hrest, hlinks]
    simp
  · have hle := (scopeOf?_suffix hscope).length_le
    have hlength := congrArg List.length hrest
    have hlength' := congrArg List.length hlinks
    simp only [List.length_append] at hlength hlength' ⊢
    omega

/-- What a text ends with is determined by its length. -/
theorem suffix_eq_of_length {cs xs ys : List Char} (hxs : xs <:+ cs) (hys : ys <:+ cs)
    (h : xs.length = ys.length) : xs = ys :=
  (List.suffix_of_suffix_length_le hxs hys (Nat.le_of_eq h)).eq_of_length h

/-- Behind the end of a piece the links are at the start of the next one. -/
theorem mem_splitPieces_of_endsPiece {left links after piece : List Char}
    {pieces : List (List Char)} (hleft : EndsPiece 0 left)
    (hlinks : ∀ c ∈ links, c ≠ ',' ∧ ∀ depth, charStep depth c = depth) (column : Nat)
    (hafter : piecesFrom 0 after = piece :: pieces) :
    (column + left.length, links ++ piece) ∈ splitPieces column (left ++ (links ++ after)) := by
  have hfirst := piecesFrom_append_plain hlinks hafter
  rw [splitPieces]
  rcases hleft with rfl | ⟨inner, rfl, hinner⟩
  · rw [List.nil_append, hfirst]
    exact List.mem_cons_self
  · rw [List.append_assoc, List.singleton_append, withColumns_append_comma hinner, hfirst,
      List.length_append]
    exact List.mem_append_right _ List.mem_cons_self

/-- An assignment to which only links and blanks lead is taken up by its declaration line. -/
theorem exists_mem_of_isDeclaredAt {cs name : List Char} {k : Nat} {scope : Scope}
    {mentions : List Mention} (h : declaredOn? cs = some (scope, mentions))
    (hassigns : AssignsAt cs name k) (hdeclared : IsDeclaredAt cs k) :
    ∃ m ∈ mentions, m.name = name ∧ m.column = k := by
  obtain ⟨before, gap, value, hcs, hk, hname, hgap, -⟩ := hassigns
  obtain ⟨scope', rest, left, blanks, after, links, hscope, hrest, hleft, hblanks, hlength⟩ :=
    hdeclared
  -- what follows the blanks is the assignment itself
  have hsuffix : rest <:+ cs := scopeOf?_suffix hscope
  have hafter : after = name ++ (gap ++ ':' :: '=' :: value) := by
    have hafterRest : after <:+ rest :=
      ⟨left ++ (links.flatMap Link.text ++ blanks), by rw [hrest]; simp⟩
    refine suffix_eq_of_length (hafterRest.trans hsuffix) ⟨before, hcs.symm⟩ ?_
    · have hall := congrArg List.length hcs
      rw [List.length_append] at hall
      omega
  let l : Link := ⟨blanks, name, gap, hblanks, hname, hgap⟩
  have hchain : rest = left ++ ((links ++ [l]).flatMap Link.text ++ value) := by
    rw [hrest, hafter]
    simp [l, Link.text]
  have hplain : ∀ c ∈ (links ++ [l]).flatMap Link.text,
      c ≠ ',' ∧ ∀ depth, charStep depth c = depth :=
    fun c hc => charStep_of_mem_links hc
  obtain ⟨piece, pieces, hvalue⟩ := List.exists_cons_of_ne_nil (piecesFrom_ne_nil 0 value)
  have hpiece := mem_splitPieces_of_endsPiece hleft hplain (cs.length - rest.length) hvalue
  rw [← hchain] at hpiece
  have hmem := mem_readChain_links (cs.length - rest.length + left.length) links l piece
  rw [declaredOn?, hscope, Option.map_some, Option.some.injEq, Prod.mk.injEq] at h
  rw [← h.2]
  refine ⟨_, List.mem_flatMap.2 ⟨_, hpiece, List.mem_map_of_mem hmem⟩, rfl, ?_⟩
  have hle := hsuffix.length_le
  have hlength' := congrArg List.length hrest
  simp only [List.length_append, l] at hlength' ⊢
  omega

/-! ### Occurrences -/

/-- An assignment at a column of a line is taken up: its name is declared, or may start there. -/
def IsTakenUp (cs : List Char) (column : Nat) : Prop :=
  IsDeclaredAt cs column ∨
    scopeOf? cs = none ∧ ∀ c ∈ (cs.take column).getLast?, isAlphanumeric c = false

theorem declaredOn?_eq_none_iff {cs : List Char} : declaredOn? cs = none ↔ scopeOf? cs = none :=
  Option.map_eq_none_iff

/-- No member access, no bracket, no dereference and no word comes before a column. -/
def IsFreeBefore (cs : List Char) (column : Nat) : Prop :=
  ∀ c ∈ (cs.take column).getLast?, c ≠ '.' ∧ c ≠ ']' ∧ c ≠ '%' ∧ isWordChar c = false

/-- Where nothing else bars a name, it may start unless a numeral comes before it. -/
theorem IsFreeBefore.admitsName_iff {cs : List Char} {column : Nat} (h : IsFreeBefore cs column) :
    admitsName (cs.take column).getLast? = true ↔
      ∀ c ∈ (cs.take column).getLast?, isAlphanumeric c = false := by
  unfold IsFreeBefore at h
  cases hlast : (cs.take column).getLast? with
  | none => simp [admitsName]
  | some c =>
      obtain ⟨hdot, hbracket, hpercent, hword⟩ := h c hlast
      have hunderscore : c ≠ '_' := by
        rintro rfl
        exact absurd hword (by decide)
      simp [admitsName, hdot, hpercent, hbracket, hunderscore]

/-- An assignment that is taken up comes in with its name. -/
theorem exists_occurrence_of_isTakenUp {b : BodyLine} {name : List Char} {k : Nat}
    (h : AssignsAt b.text name k) (hfree : IsFreeBefore b.text k) (htaken : IsTakenUp b.text k) :
    ∃ o : Occurrence, o.IsOf [b] ∧ o.mention.name = name ∧ o.mention.column = k := by
  rcases htaken with hdeclared | ⟨hscope, halphanumeric⟩
  · obtain ⟨scope, mentions, hline⟩ : ∃ scope mentions,
        declaredOn? b.text = some (scope, mentions) := by
      obtain ⟨scope, rest, -, -, -, -, hscope, -⟩ := hdeclared
      exact ⟨scope, _, by rw [declaredOn?, hscope]; rfl⟩
    obtain ⟨m, hm, hfound⟩ := exists_mem_of_isDeclaredAt hline h hdeclared
    exact ⟨⟨.declared scope, b, m⟩, ⟨List.mem_singleton_self b, mentions, hline, hm⟩, hfound⟩
  · obtain ⟨m, hm, hfound⟩ := exists_mem_assignedNames h (hfree.admitsName_iff.2 halphanumeric)
    exact ⟨⟨.assigned, b, m⟩,
      ⟨List.mem_singleton_self b, declaredOn?_eq_none_iff.2 hscope, hm⟩, hfound⟩

/-- What comes in at a column is taken up there. -/
theorem isTakenUp_of_isOf {b : BodyLine} {o : Occurrence} (h : o.IsOf [b])
    (hfree : IsFreeBefore b.text o.mention.column) : IsTakenUp b.text o.mention.column := by
  obtain ⟨way, line, m⟩ := o
  obtain ⟨hline, hway⟩ := h
  obtain rfl := List.mem_singleton.1 hline
  have himplied (hnone : declaredOn? line.text = none) (hm : m ∈ impliedOn line.text) :
      IsTakenUp line.text m.column :=
    Or.inr ⟨declaredOn?_eq_none_iff.1 hnone,
      hfree.admitsName_iff.1 (admitsName_of_mem_impliedOn hm)⟩
  simp only [impliedOn, List.mem_append] at himplied
  cases way with
  | declared scope =>
      obtain ⟨mentions, hdeclared, hm⟩ := hway
      exact Or.inl (isDeclaredAt_of_mem_declaredOn? hdeclared hm)
  | loop => exact himplied hway.1 (Or.inl (Or.inl hway.2))
  | caught => exact himplied hway.1 (Or.inl (Or.inr hway.2))
  | assigned => exact himplied hway.1 (Or.inr hway.2)

end ScriptOutline
