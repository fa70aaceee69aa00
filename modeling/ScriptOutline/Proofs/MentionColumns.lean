/-
**Every mention stands where it is said to stand.**

The column of a mention is a sum over nested pieces of a line: what follows the keyword, the piece
between two commas, the step of a chain.  At each level a piece stands at its column in the text
around it, and standing at a column composes, so that the name of a mention is found at its column
of the whole line.

Main definitions:

* `StandsAt` — a text holds a piece at a column;
* `Mention.IsOn` — a mention is an identifier that stands at its column of a line.

Main results:

* `StandsAt.trans` — standing at a column composes;
* `standsAt_of_mem_chainNames`, `standsAt_of_mem_piecesFrom` — the columns of chains and pieces;
* `exists_of_mem_assignmentsFrom` — an assignment that is found starts a rest of its line;
* `isOn_of_mem_declaredOn?`, `isOn_of_mem_impliedOn` — the mentions of declaration lines and of all
  other lines.
-/

import ScriptOutline.Proofs.WordsAndBlanks

set_option relaxedAutoImplicit false
set_option autoImplicit false

namespace ScriptOutline

/-! ### Pieces at columns -/

/-- A text whose first column is `base` holds a piece at a column. -/
def StandsAt (base : Nat) (cs piece : List Char) (column : Nat) : Prop :=
  ∃ before after, cs = before ++ piece ++ after ∧ column = base + before.length

theorem StandsAt.refl (base : Nat) (cs : List Char) : StandsAt base cs cs base :=
  ⟨[], [], by simp, rfl⟩

/-- A piece of a piece is a piece of the whole. -/
theorem StandsAt.trans {base column k : Nat} {cs piece inner : List Char}
    (houter : StandsAt base cs piece column) (hinner : StandsAt column piece inner k) :
    StandsAt base cs inner k := by
  obtain ⟨before, after, rfl, rfl⟩ := houter
  obtain ⟨before', after', rfl, rfl⟩ := hinner
  refine ⟨before ++ before', after' ++ after, by simp, ?_⟩
  rw [List.length_append, Nat.add_assoc]

/-- What a text ends with stands as far behind its start as it is shorter. -/
theorem StandsAt.of_suffix (base : Nat) {cs rest : List Char} (h : rest <:+ cs) :
    StandsAt base cs rest (base + (cs.length - rest.length)) := by
  obtain ⟨before, rfl⟩ := h
  exact ⟨before, [], by simp, by simp⟩

theorem StandsAt.of_prefix (base : Nat) (piece rest : List Char) :
    StandsAt base (piece ++ rest) piece base :=
  ⟨[], rest, by simp, rfl⟩

theorem trimStart_suffix (cs : List Char) : trimStart cs <:+ cs :=
  List.dropWhile_suffix _

/-! ### Chains -/

theorem afterAssign?_suffix {cs rest : List Char} (h : afterAssign? cs = some rest) :
    rest <:+ cs := by
  unfold afterAssign? at h
  split at h
  · next heq =>
      simp only [Option.some.injEq] at h
      subst h
      exact (show _ <:+ trimStart cs from ⟨[':', '='], heq.symm⟩).trans (trimStart_suffix cs)
  · simp at h

/-- An assigned name is an identifier, and what follows the mark ends the text. -/
theorem assignedName?_spec {cs name rest : List Char} (h : assignedName? cs = some (name, rest)) :
    isIdentifier name = true ∧ name <+: trimStart cs ∧ rest <:+ cs := by
  unfold assignedName? at h
  split at h
  · simp at h
  · next name' after hname =>
      obtain ⟨value, hvalue, heq⟩ := Option.map_eq_some_iff.1 h
      simp only [Prod.mk.injEq] at heq
      obtain ⟨rfl, rfl⟩ := heq
      obtain ⟨hcs, hidentifier, -⟩ := identifier?_spec hname
      have hafter : after <:+ trimStart cs := ⟨name', hcs.symm⟩
      exact ⟨hidentifier, ⟨after, hcs.symm⟩,
        (afterAssign?_suffix hvalue).trans (hafter.trans (trimStart_suffix cs))⟩

/-- A name at the start of a text, leading blanks aside, stands behind these. -/
theorem StandsAt.of_prefix_trimStart (base : Nat) {cs name : List Char}
    (h : name <+: trimStart cs) :
    StandsAt base cs name (base + (cs.length - (trimStart cs).length)) := by
  obtain ⟨after, hafter⟩ := h
  refine (StandsAt.of_suffix base (trimStart_suffix cs)).trans ?_
  rw [← hafter]
  exact StandsAt.of_prefix _ name after

/-- The names of a chain are identifiers and stand at their columns. -/
theorem standsAt_of_mem_chainNames {column k : Nat} {cs name : List Char}
    (h : (name, k) ∈ (chainNames column cs).1) :
    isIdentifier name = true ∧ StandsAt column cs name k := by
  fun_induction chainNames column cs with
  | case1 => simp at h
  | case2 column cs first rest hfirst names value hrest ih =>
      obtain ⟨hidentifier, hprefix, hsuffix⟩ := assignedName?_spec hfirst
      rcases List.mem_cons.1 h with heq | h
      · simp only [Prod.mk.injEq] at heq
        obtain ⟨rfl, rfl⟩ := heq
        exact ⟨hidentifier, StandsAt.of_prefix_trimStart column hprefix⟩
      · rw [hrest] at ih
        obtain ⟨hname, hk⟩ := ih h
        exact ⟨hname, (StandsAt.of_suffix column hsuffix).trans hk⟩

theorem trimEnd_isPrefix (cs : List Char) : trimEnd cs <+: cs := by
  have h : cs.reverse.dropWhile isBlank <:+ cs.reverse := List.dropWhile_suffix _
  have hr := List.reverse_prefix.2 h
  rwa [List.reverse_reverse] at hr

/-- The names of a chain, or the only name of a text, stand at their columns. -/
theorem standsAt_of_mem_readChain {column k : Nat} {cs name : List Char}
    (h : (name, k) ∈ (readChain column cs).1) :
    isIdentifier name = true ∧ StandsAt column cs name k := by
  have hchain := @standsAt_of_mem_chainNames column k cs name
  unfold readChain at h
  generalize chainNames column cs = chain at h hchain
  obtain ⟨names, value⟩ := chain
  simp only at h hchain
  split at h
  · split at h
    · next lone hlone =>
        simp only [List.mem_singleton, Prod.mk.injEq] at h
        obtain ⟨rfl, rfl⟩ := h
        unfold loneName? at hlone
        simp only [ite_eq_iff, Option.some.injEq, reduceCtorEq, and_false, or_false] at hlone
        obtain ⟨hidentifier, rfl⟩ := hlone
        exact ⟨hidentifier, StandsAt.of_prefix_trimStart column (trimEnd_isPrefix _)⟩
    · simp at h
  · exact hchain h

/-! ### Pieces between commas -/

theorem StandsAt.cons {base column : Nat} {cs piece : List Char} (c : Char)
    (h : StandsAt (base + 1) cs piece column) : StandsAt base (c :: cs) piece column := by
  obtain ⟨before, after, rfl, rfl⟩ := h
  exact ⟨c :: before, after, rfl, by rw [List.length_cons]; omega⟩

/-- The pieces between the commas of a text stand at their columns. -/
theorem standsAt_of_mem_piecesFrom {depth column k : Nat} {cs piece : List Char}
    (h : (k, piece) ∈ withColumns column (piecesFrom depth cs)) :
    StandsAt column cs piece k := by
  induction cs generalizing depth column k piece with
  | nil =>
      simp only [piecesFrom, withColumns, List.mem_singleton, Prod.mk.injEq] at h
      obtain ⟨rfl, rfl⟩ := h
      exact StandsAt.refl _ _
  | cons c rest ih =>
      simp only [piecesFrom] at h
      split at h
      · rcases List.mem_cons.1 h with heq | h
        · simp only [Prod.mk.injEq] at heq
          obtain ⟨rfl, rfl⟩ := heq
          exact StandsAt.of_prefix _ [] (c :: rest)
        · exact (ih h).cons c
      · have hrest : ∀ k piece,
            (k, piece) ∈ withColumns (column + 1) (piecesFrom (charStep depth c) rest) →
              StandsAt (column + 1) rest piece k := fun _ _ => ih
        split at h
        · simp only [withColumns, List.mem_singleton, Prod.mk.injEq] at h
          obtain ⟨rfl, rfl⟩ := h
          exact StandsAt.of_prefix _ [c] rest
        · next first pieces hpieces =>
            rw [hpieces] at hrest
            simp only [withColumns, List.length_cons, List.mem_cons] at h hrest
            rcases h with heq | h
            · -- the first piece starts where the text does, one character before what follows
              simp only [Prod.mk.injEq] at heq
              obtain ⟨rfl, rfl⟩ := heq
              obtain ⟨before, after, hcs, hlength⟩ := hrest (k + 1) first (Or.inl rfl)
              have hnil : before = [] := List.eq_nil_of_length_eq_zero (by omega)
              subst hnil
              exact ⟨[], after, by simp [hcs], rfl⟩
            · have hcolumn : column + (first.length + 1) + 1 = column + 1 + first.length + 1 := by
                omega
              rw [hcolumn] at h
              exact (hrest k piece (Or.inr h)).cons c

/-! ### Mentions of a line -/

/-- A mention is an identifier that stands at its column of a line. -/
def Mention.IsOn (m : Mention) (cs : List Char) : Prop :=
  isIdentifier m.name = true ∧ StandsAt 0 cs m.name m.column

theorem scopeOf?_suffix {cs rest : List Char} {scope : Scope}
    (h : scopeOf? cs = some (scope, rest)) : rest <:+ cs := by
  simp only [scopeOf?] at h
  split at h
  · simp at h
  · split at h
    · simp at h
    · simp only [Option.some.injEq, Prod.mk.injEq] at h
      rw [← h.2]
      exact ((trimStart_suffix _).trans (List.dropWhile_suffix _)).trans (trimStart_suffix cs)

/-- The mentions of a declaration line stand at their columns. -/
theorem isOn_of_mem_declaredOn? {cs : List Char} {scope : Scope} {mentions : List Mention}
    (h : declaredOn? cs = some (scope, mentions)) {m : Mention} (hm : m ∈ mentions) :
    m.IsOn cs := by
  obtain ⟨⟨scope', rest⟩, hscope, heq⟩ := Option.map_eq_some_iff.1 h
  simp only [Prod.mk.injEq] at heq
  obtain ⟨-, rfl⟩ := heq
  obtain ⟨⟨column, piece⟩, hpiece, hm⟩ := List.mem_flatMap.1 hm
  obtain ⟨⟨name, k⟩, hname, rfl⟩ := List.mem_map.1 hm
  obtain ⟨hidentifier, hk⟩ := standsAt_of_mem_readChain hname
  have hrest := StandsAt.of_suffix 0 (scopeOf?_suffix hscope)
  rw [Nat.zero_add] at hrest
  exact ⟨hidentifier, (hrest.trans (standsAt_of_mem_piecesFrom hpiece)).trans hk⟩

/-- A name before the end of a line stands as far from its start as the lengths say. -/
theorem Mention.isOn_before {cs name rest : List Char} (hname : isIdentifier name = true)
    (h : name ++ rest <:+ cs) : (Mention.before cs.length name rest).IsOn cs := by
  refine ⟨hname, ?_⟩
  have hcolumn : cs.length - rest.length - name.length =
      0 + (cs.length - (name ++ rest).length) := by
    rw [List.length_append]
    omega
  simp only [Mention.before, hcolumn]
  exact (StandsAt.of_suffix 0 h).trans (StandsAt.of_prefix _ name rest)

/-! ### Loops and caught errors -/

theorem afterBlanks?_suffix {cs rest : List Char} (h : afterBlanks? cs = some rest) :
    rest <:+ cs := by
  obtain ⟨blanks, hcs, -⟩ := afterBlanks?_spec h
  exact ⟨blanks, hcs.symm⟩

theorem afterWord?_suffix {word cs rest : List Char} (h : afterWord? word cs = some rest) :
    rest <:+ cs := by
  obtain ⟨taken, hcs, -⟩ := afterWord?_spec h
  exact ⟨taken, hcs.symm⟩

theorem afterFor?_suffix {cs rest : List Char} (h : afterFor? cs = some rest) : rest <:+ cs := by
  unfold afterFor? at h
  split at h
  · simp at h
  · next after hword =>
      have hafter : after <:+ cs := (afterWord?_suffix hword).trans (trimStart_suffix cs)
      split at h
      · next inner hinner =>
          simp only [Option.some.injEq] at h
          subst h
          have hsuffix : inner <:+ trimStart after := ⟨['('], hinner.symm⟩
          exact (trimStart_suffix inner).trans
            (hsuffix.trans ((trimStart_suffix after).trans hafter))
      · exact (afterBlanks?_suffix h).trans hafter

theorem isOn_of_mem_loopNames {cs : List Char} {m : Mention} (h : m ∈ loopNames cs) :
    m.IsOn cs := by
  unfold loopNames at h
  split at h
  · simp at h
  · next first rest hfirst =>
      obtain ⟨inner, hfor, hname⟩ := Option.bind_eq_some_iff.1 hfirst
      obtain ⟨hinner, hidentifier, -⟩ := identifier?_spec hname
      have hon : (Mention.before cs.length first rest).IsOn cs :=
        Mention.isOn_before hidentifier (by rw [← hinner]; exact afterFor?_suffix hfor)
      split at h
      · next more hmore =>
          split at h
          · simp at h
          · next second after hsecond =>
              obtain ⟨htail, hidentifier', -⟩ := identifier?_spec hsecond
              split at h
              · have hrest : rest <:+ cs :=
                  (show rest <:+ inner from ⟨first, hinner.symm⟩).trans (afterFor?_suffix hfor)
                have hsuffix : more <:+ trimStart rest := ⟨[','], hmore.symm⟩
                have hon' : (Mention.before cs.length second after).IsOn cs := by
                  refine Mention.isOn_before hidentifier' ?_
                  rw [← htail]
                  exact (trimStart_suffix more).trans
                    (hsuffix.trans ((trimStart_suffix rest).trans hrest))
                rcases List.mem_cons.1 h with rfl | h
                · exact hon
                · rw [List.mem_singleton.1 h]
                  exact hon'
              · simp at h
      · split at h
        · rw [List.mem_singleton.1 h]
          exact hon
        · simp at h

theorem afterCatch?_suffix {cs rest : List Char} (h : afterCatch? cs = some rest) :
    rest <:+ cs := by
  simp only [afterCatch?] at h
  split at h
  · simp at h
  · next after hword =>
      have hafter := afterWord?_suffix hword
      split at h
      · simp at h
      · simp only [Option.some.injEq] at h
        subst h
        refine hafter.trans ?_
        split
        · next inner hbrace =>
            have hsuffix : inner <:+ trimStart cs := ⟨['}'], hbrace.symm⟩
            exact (trimStart_suffix inner).trans (hsuffix.trans (trimStart_suffix cs))
        · exact trimStart_suffix cs

/-- The name after the last word `as` is an identifier of the text. -/
theorem lastNameAfterAs?_spec {inWord : Bool} {cs name rest : List Char}
    (h : lastNameAfterAs? inWord cs = some (name, rest)) :
    isIdentifier name = true ∧ name ++ rest <:+ cs := by
  induction cs generalizing inWord with
  | nil => simp [lastNameAfterAs?] at h
  | cons c tail ih =>
      simp only [lastNameAfterAs?, Option.orElse_eq_orElse, Option.orElse_eq_or] at h
      rcases Option.or_eq_some_iff.1 h with h | ⟨-, h⟩
      · obtain ⟨hname, hsuffix⟩ := ih h
        exact ⟨hname, hsuffix.trans (List.suffix_cons c tail)⟩
      · split at h
        · simp at h
        · obtain ⟨inner, hbefore, hname⟩ := Option.bind_eq_some_iff.1 h
          obtain ⟨after, hword, hblanks⟩ := Option.bind_eq_some_iff.1 hbefore
          obtain ⟨hinner, hidentifier, -⟩ := identifier?_spec hname
          refine ⟨hidentifier, ?_⟩
          rw [← hinner]
          exact (afterBlanks?_suffix hblanks).trans (afterWord?_suffix hword)

theorem isOn_of_mem_caughtNames {cs : List Char} {m : Mention} (h : m ∈ caughtNames cs) :
    m.IsOn cs := by
  unfold caughtNames at h
  split at h
  · simp at h
  · next name rest hname =>
      obtain ⟨inner, hcatch, hlast⟩ := Option.bind_eq_some_iff.1 hname
      obtain ⟨hidentifier, hsuffix⟩ := lastNameAfterAs?_spec hlast
      rw [List.mem_singleton.1 h]
      exact Mention.isOn_before hidentifier (hsuffix.trans (afterCatch?_suffix hcatch))

/-! ### Assignments -/

/-- What starts with an assignment starts with a name that is admitted, and a mark follows it. -/
theorem exists_of_mem_assignmentAt {before : Option Char} {column : Nat} {cs : List Char}
    {m : Mention} (h : m ∈ assignmentAt before column cs) :
    ∃ name rest value, identifier? cs = some (name, rest) ∧ afterAssign? rest = some value ∧
      admitsName before = true ∧ m = ⟨name, column, true, valueHint? value⟩ := by
  unfold assignmentAt at h
  split at h
  · simp at h
  · next name rest hname =>
      split at h
      · simp at h
      · next value hvalue =>
          split at h
          · next hadmits =>
              exact ⟨name, rest, value, hname, hvalue, hadmits, List.mem_singleton.1 h⟩
          · simp at h

/-- An assignment that is found on a line is what some rest of it starts with. -/
theorem exists_of_mem_assignmentsFrom {inName : Bool} {prev : Option Char} {column : Nat}
    {cs : List Char} {m : Mention} (h : m ∈ assignmentsFrom inName prev column cs) :
    ∃ before rest, cs = before ++ rest ∧
      m ∈ assignmentAt (before.getLast?.or prev) (column + before.length) rest := by
  induction cs generalizing inName prev column with
  | nil => simp [assignmentsFrom] at h
  | cons c tail ih =>
      have further {b : Bool} (hm : m ∈ assignmentsFrom b (some c) (column + 1) tail) :
          ∃ before rest, c :: tail = before ++ rest ∧
            m ∈ assignmentAt (before.getLast?.or prev) (column + before.length) rest := by
        obtain ⟨before, rest, rfl, hfound⟩ := ih hm
        refine ⟨c :: before, rest, rfl, ?_⟩
        rwa [getLast?_cons_or, List.length_cons, Nat.add_comm before.length, ← Nat.add_assoc]
      simp only [assignmentsFrom] at h
      split at h
      · exact further h
      · rcases List.mem_append.1 h with h | h
        · exact ⟨[], c :: tail, rfl, h⟩
        · exact further h

theorem standsAt_of_mem_assignmentsFrom {inName : Bool} {before : Option Char} {column : Nat}
    {cs : List Char} {m : Mention} (h : m ∈ assignmentsFrom inName before column cs) :
    isIdentifier m.name = true ∧ StandsAt column cs m.name m.column := by
  obtain ⟨front, rest, rfl, hm⟩ := exists_of_mem_assignmentsFrom h
  obtain ⟨name, after, value, hidentifier, -, -, rfl⟩ := exists_of_mem_assignmentAt hm
  obtain ⟨rfl, hname, -⟩ := identifier?_spec hidentifier
  exact ⟨hname, front, after, by simp, rfl⟩

/-- The mentions of any other line stand at their columns. -/
theorem isOn_of_mem_impliedOn {cs : List Char} {m : Mention} (h : m ∈ impliedOn cs) :
    m.IsOn cs := by
  unfold impliedOn at h
  rcases List.mem_append.1 h with h | h
  · rcases List.mem_append.1 h with h | h
    · exact isOn_of_mem_loopNames h
    · exact isOn_of_mem_caughtNames h
  · exact standsAt_of_mem_assignmentsFrom h

end ScriptOutline
