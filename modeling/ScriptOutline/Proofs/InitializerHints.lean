/-
**The text that a hint is read off.**

The hint of a variable is read off the text behind the last mark of the chain that its name starts.
On a declaration line this text ends with its piece, at a comma outside of brackets; on any other
line it goes on to the end of the line.  A name that a caught error gets at the same place comes
before the assignment, and has no hint.

Main definitions:

* `LeadsTo` — links lead from a column to what follows their last mark;
* `ReadsOn` — a name is read at the start of what a line ends with;
* `chainHint` — the hint of a name that a chain starts with.

Main results:

* `hint_of_mem_declaredOn?`, `hint_of_mem_assignedNames` — the hints of the two kinds of lines;
* `ne_column_of_mem_loopNames` — the names of a loop start no chain;
* `exists_isFirst_of_mem_findVariables` — a variable is the first occurrence of its name;
* `hint_of_isFirst` — **the hint of the first occurrence of a name that starts a chain**.
-/

import ScriptOutline.Proofs.ChainLines
import ScriptOutline.Proofs.KeptAssignments
import ScriptOutline.Proofs.ParameterParts

set_option relaxedAutoImplicit false
set_option autoImplicit false

namespace ScriptOutline

/-! ### Chains on a line -/

/--
A name starts at a column, and its link and more links follow one another from there on up to what
is behind the last of them.
-/
def LeadsTo (cs : List Char) (column : Nat) (rest : List Char) : Prop :=
  ∃ (before : List Char) (first : Link) (links : List Link),
    cs = before ++ ((first :: links).flatMap Link.text ++ rest) ∧
      before.length + first.lead.length = column

/-- What is left of a line from the name on. -/
theorem LeadsTo.exists_name {cs rest : List Char} {column : Nat} (h : LeadsTo cs column rest) :
    ∃ (name gap : List Char) (links : List Link), isIdentifier name = true ∧
      (∀ c ∈ gap, isBlank c = true) ∧
      ∃ before, cs = before ++ (name ++ (gap ++ ':' :: '=' :: (links.flatMap Link.text ++ rest))) ∧
        before.length = column := by
  obtain ⟨before, first, links, rfl, hcolumn⟩ := h
  refine ⟨first.name, first.gap, links, first.name_identifier, first.gap_blank,
    before ++ first.lead, ?_, by rw [List.length_append, hcolumn]⟩
  simp [Link.text]

/-- What assigns to no name does not start to do so when it is cut. -/
theorem assignedName?_eq_none_of_append {cs rest : List Char}
    (h : assignedName? (cs ++ rest) = none) : assignedName? cs = none := by
  cases hname : assignedName? cs with
  | none => rfl
  | some found =>
      obtain ⟨name, after⟩ := found
      obtain ⟨l, -, rfl⟩ := exists_link hname
      rw [List.append_assoc, assignedName?_link] at h
      simp at h

/-- A name is read at the start of what a line ends with, at the column of a mention. -/
def ReadsOn (m : Mention) (cs rest : List Char) : Prop :=
  identifier? (m.name ++ rest) = some (m.name, rest) ∧
    ∃ before, cs = before ++ (m.name ++ rest) ∧ before.length = m.column

/-- What is read at one column is one name. -/
theorem ReadsOn.eq {m : Mention} {cs rest before name after : List Char} (h : ReadsOn m cs rest)
    (hcs : cs = before ++ (name ++ after)) (hcolumn : before.length = m.column)
    (hname : identifier? (name ++ after) = some (name, after)) : m.name = name ∧ rest = after := by
  obtain ⟨hread, before', hcs', hcolumn'⟩ := h
  have hsuffix : m.name ++ rest = name ++ after := by
    rw [hcs] at hcs'
    exact (List.append_inj hcs' (hcolumn.trans hcolumn'.symm)).2.symm
  rw [hsuffix, hname, Option.some.injEq, Prod.mk.injEq] at hread
  exact ⟨hread.1.symm, hread.2.symm⟩

/-- At the start of a chain its first name is read, and what follows it. -/
theorem ReadsOn.eq_of_leadsTo {m : Mention} {cs after rest : List Char} (h : ReadsOn m cs after)
    (hchain : LeadsTo cs m.column rest) :
    ∃ (gap : List Char) (links : List Link), (∀ c ∈ gap, isBlank c = true) ∧
      after = gap ++ ':' :: '=' :: (links.flatMap Link.text ++ rest) := by
  obtain ⟨name, gap, links, hname, hgap, before, hcs, hcolumn⟩ := hchain.exists_name
  have hread := identifier?_append_of_identifier hname
    (not_isWordChar_head_of_mark hgap ('=' :: (links.flatMap Link.text ++ rest)))
  exact ⟨gap, links, hgap, (h.eq hcs hcolumn hread).2⟩

/-- Two names that are read at one column are the same. -/
theorem ReadsOn.name_eq {m m' : Mention} {cs after after' : List Char} (h : ReadsOn m cs after)
    (h' : ReadsOn m' cs after') (hcolumn : m.column = m'.column) : m.name = m'.name := by
  obtain ⟨hread, before, hcs, hbefore⟩ := h'
  exact (h.eq hcs (hbefore.trans hcolumn.symm) hread).1

/-- A mention before the end of a line is read there. -/
theorem readsOn_before {cs name rest : List Char}
    (hname : identifier? (name ++ rest) = some (name, rest)) (h : name ++ rest <:+ cs) :
    ReadsOn (Mention.before cs.length name rest) cs rest := by
  obtain ⟨before, rfl⟩ := h
  refine ⟨hname, before, rfl, ?_⟩
  simp only [Mention.before, List.length_append]
  omega

/-! ### Assignments on other lines -/

/-- Blanks at the ends of a text give no hint. -/
theorem Hint.ofText?_trim (cs : List Char) : Hint.ofText? (trim cs) = Hint.ofText? cs := by
  simp only [Hint.ofText?, trim_of_isTrimmed (isTrimmed_trim cs)]

/-- The hint of a chain is that of what follows its last mark. -/
theorem valueHint?_links {rest : List Char} (h : assignedName? rest = none) (links : List Link) :
    valueHint? (links.flatMap Link.text ++ rest) = Hint.ofText? rest := by
  cases links with
  | nil =>
      have hread : (readChain 0 rest).2 = none := by
        have hnames := chainNames_links 0 [] h
        rw [List.flatMap_nil, List.nil_append] at hnames
        simp only [readChain, hnames, linkColumns, List.isEmpty_nil, if_true]
        split <;> rfl
      rw [List.flatMap_nil, List.nil_append, valueHint?, hread]
  | cons l links =>
      rw [valueHint?, readChain_links 0 (List.cons_ne_nil l links) h]
      exact Hint.ofText?_trim rest

/-- An assignment that is found is read on its line, with the hint of what follows its mark. -/
theorem readsOn_of_mem_assignedNames {cs : List Char} {m : Mention} (h : m ∈ assignedNames cs) :
    ∃ rest value, ReadsOn m cs rest ∧ afterAssign? rest = some value ∧
      m.hint = valueHint? value := by
  obtain ⟨before, inner, rfl, hm⟩ := exists_of_mem_assignmentsFrom h
  obtain ⟨name, rest, value, hname, hvalue, -, rfl⟩ := exists_of_mem_assignmentAt hm
  have hinner := identifier?_eq_some hname
  exact ⟨rest, value, ⟨hinner ▸ hname, before, by rw [hinner], (Nat.zero_add _).symm⟩, hvalue, rfl⟩

/-- On a line without a declaration the hint is read off all that follows the chain. -/
theorem hint_of_mem_assignedNames {cs rest : List Char} {m : Mention} (h : m ∈ assignedNames cs)
    (hchain : LeadsTo cs m.column rest) (hrest : assignedName? rest = none) :
    m.hint = Hint.ofText? rest := by
  obtain ⟨after, value, hreads, hvalue, hhint⟩ := readsOn_of_mem_assignedNames h
  obtain ⟨gap, links, hgap, rfl⟩ := hreads.eq_of_leadsTo hchain
  rw [afterAssign?_mark hgap, Option.some.injEq] at hvalue
  rw [hhint, ← hvalue, valueHint?_links hrest]

/-! ### Loops and caught errors -/

/-- What goes on with an assignment mark does not go on with the word `in`. -/
theorem not_meetsIn_of_mark {gap : List Char} (hgap : ∀ c ∈ gap, isBlank c = true)
    (rest : List Char) : meetsIn (gap ++ ':' :: rest) = false := by
  have hcolon : afterWord? "in".toList (':' :: rest) = none := rfl
  cases gap with
  | nil => rfl
  | cons c gap =>
      obtain ⟨hc, hgap⟩ := List.forall_mem_cons.1 hgap
      have hblanks : afterBlanks? (c :: gap ++ ':' :: rest) = some (':' :: rest) := by
        rw [List.cons_append, afterBlanks?, if_pos hc, trimStart_blanks hgap,
          trimStart_of_head (by rintro d ⟨⟩; decide)]
      rw [meetsIn, hblanks, Option.bind_some, hcolon]

/-- A name that a loop sets is read on its line, before a comma or the word `in`. -/
theorem readsOn_of_mem_loopNames {cs : List Char} {m : Mention} (h : m ∈ loopNames cs) :
    ∃ rest, ReadsOn m cs rest ∧ (meetsIn rest = true ∨ (trimStart rest).head? = some ',') := by
  unfold loopNames at h
  split at h
  · simp at h
  · next first rest hfirst =>
      obtain ⟨inner, hfor, hname⟩ := Option.bind_eq_some_iff.1 hfirst
      have hinner := identifier?_eq_some hname
      have hfirstOn : ReadsOn (Mention.before cs.length first rest) cs rest :=
        readsOn_before (hinner ▸ hname) (hinner ▸ afterFor?_suffix hfor)
      split at h
      · next more hmore =>
          split at h
          · simp at h
          · next second after hsecond =>
              split at h
              · next hin =>
                  rcases List.mem_cons.1 h with rfl | h
                  · exact ⟨rest, hfirstOn, Or.inr (by rw [hmore]; rfl)⟩
                  · rw [List.mem_singleton.1 h]
                    have htail := identifier?_eq_some hsecond
                    have hrest : rest <:+ cs :=
                      (show rest <:+ inner from ⟨first, hinner.symm⟩).trans (afterFor?_suffix hfor)
                    have hmoreSuffix : more <:+ trimStart rest := ⟨[','], hmore.symm⟩
                    refine ⟨after, readsOn_before (htail ▸ hsecond) (htail ▸ ?_), Or.inl hin⟩
                    exact (trimStart_suffix more).trans
                      (hmoreSuffix.trans ((trimStart_suffix rest).trans hrest))
              · simp at h
      · split at h
        · next hin =>
            rw [List.mem_singleton.1 h]
            exact ⟨rest, hfirstOn, Or.inl hin⟩
        · simp at h

/-- The names of a loop start no chain. -/
theorem ne_column_of_mem_loopNames {cs rest : List Char} {m : Mention} (h : m ∈ loopNames cs) :
    ¬LeadsTo cs m.column rest := by
  intro hchain
  obtain ⟨after, hreads, hafter⟩ := readsOn_of_mem_loopNames h
  obtain ⟨gap, links, hgap, rfl⟩ := hreads.eq_of_leadsTo hchain
  rcases hafter with hin | hcomma
  · rw [not_meetsIn_of_mark hgap] at hin
    exact Bool.noConfusion hin
  · rw [trimStart_blanks hgap, trimStart_of_head (by rintro d ⟨⟩; decide)] at hcomma
    simp at hcomma

theorem identifier?_of_lastNameAfterAs? {inWord : Bool} {cs name rest : List Char}
    (h : lastNameAfterAs? inWord cs = some (name, rest)) :
    identifier? (name ++ rest) = some (name, rest) := by
  induction cs generalizing inWord with
  | nil => simp [lastNameAfterAs?] at h
  | cons c tail ih =>
      simp only [lastNameAfterAs?, Option.orElse_eq_orElse, Option.orElse_eq_or] at h
      rcases Option.or_eq_some_iff.1 h with h | ⟨-, h⟩
      · exact ih h
      · split at h
        · simp at h
        · obtain ⟨inner, -, hname⟩ := Option.bind_eq_some_iff.1 h
          exact identifier?_eq_some hname ▸ hname

/-- The name of a caught error is read on its line, and has no hint. -/
theorem readsOn_of_mem_caughtNames {cs : List Char} {m : Mention} (h : m ∈ caughtNames cs) :
    m.hint = none ∧ ∃ rest, ReadsOn m cs rest := by
  unfold caughtNames at h
  split at h
  · simp at h
  · next name rest hfound =>
      obtain ⟨inner, hcatch, hlast⟩ := Option.bind_eq_some_iff.1 hfound
      obtain ⟨-, hsuffix⟩ := lastNameAfterAs?_spec hlast
      rw [List.mem_singleton.1 h]
      exact ⟨rfl, rest, readsOn_before (identifier?_of_lastNameAfterAs? hlast)
        (hsuffix.trans (afterCatch?_suffix hcatch))⟩

/-! ### Declaration lines -/

/-- Up to a comma or its end, a closed text is the first piece of a line. -/
theorem exists_piecesFrom_of_isClosed {value after : List Char} (hvalue : isClosed 0 value = true)
    (hafter : ∀ c ∈ after.head?, c = ',') :
    ∃ pieces, piecesFrom 0 (value ++ after) = value :: pieces := by
  cases after with
  | nil => exact ⟨[], by rw [List.append_nil, piecesFrom_of_isClosed hvalue]⟩
  | cons c after =>
      obtain rfl := hafter c rfl
      refine ⟨piecesFrom 0 after, ?_⟩
      rw [piecesFrom_append_comma (foldl_charStep_of_isClosed hvalue),
        piecesFrom_of_isClosed hvalue]
      rfl

/-- Where only links and blanks lead to a chain, its links follow those in its piece. -/
theorem exists_links_of_isDeclaredAt {cs value : List Char} {column : Nat}
    (hdeclared : IsDeclaredAt cs column) (hchain : LeadsTo cs column value) :
    ∃ (scope : Scope) (rest left : List Char) (links more : List Link) (l : Link),
      scopeOf? cs = some (scope, rest) ∧ EndsPiece 0 left ∧
        rest = left ++ ((links ++ l :: more).flatMap Link.text ++ value) ∧
        column = cs.length - rest.length + left.length + (links.flatMap Link.text).length +
          l.lead.length := by
  obtain ⟨name, gap, more, hname, hgap, before, hcs, hcolumn⟩ := hchain.exists_name
  obtain ⟨scope, rest, left, blanks, tail, links, hscope, hleft, hends, hblanks, hlength⟩ :=
    hdeclared
  have hsuffix : rest <:+ cs := scopeOf?_suffix hscope
  -- what follows the blanks is what the chain starts with
  have htail : tail = name ++ (gap ++ ':' :: '=' :: (more.flatMap Link.text ++ value)) := by
    have htailRest : tail <:+ rest :=
      ⟨left ++ (links.flatMap Link.text ++ blanks), by rw [hleft]; simp⟩
    refine suffix_eq_of_length (htailRest.trans hsuffix) ⟨before, hcs.symm⟩ ?_
    have hall := congrArg List.length hcs
    rw [List.length_append] at hall
    omega
  refine ⟨scope, rest, left, links, more, ⟨blanks, name, gap, hblanks, hname, hgap⟩, hscope, hends,
    ?_, ?_⟩
  · rw [hleft, htail]
    simp [Link.text]
  · have hle := hsuffix.length_le
    have hlengths := congrArg List.length hleft
    simp only [List.length_append] at hlengths
    simp only
    omega

/-- A chain to which only links and blanks lead is mentioned, with the hint of its value. -/
theorem exists_mem_of_leadsTo {cs value after : List Char} {column : Nat} {scope : Scope}
    {mentions : List Mention} (h : declaredOn? cs = some (scope, mentions))
    (hdeclared : IsDeclaredAt cs column) (hchain : LeadsTo cs column (value ++ after))
    (hnone : assignedName? (value ++ after) = none) (hvalue : isClosed 0 value = true)
    (hafter : ∀ c ∈ after.head?, c = ',') :
    ∃ m ∈ mentions, m.column = column ∧ m.hint = Hint.ofText? value := by
  obtain ⟨scope', rest, left, links, more, l, hscope, hends, hrest, hcolumn⟩ :=
    exists_links_of_isDeclaredAt hdeclared hchain
  obtain ⟨pieces, hpieces⟩ := exists_piecesFrom_of_isClosed hvalue hafter
  have hpiece := mem_splitPieces_of_endsPiece hends
    (fun c => @charStep_of_mem_links (links ++ l :: more) c) (cs.length - rest.length) hpieces
  rw [← hrest] at hpiece
  have hread := readChain_links (cs.length - rest.length + left.length)
    (List.append_ne_nil_of_right_ne_nil links (List.cons_ne_nil l more))
    (assignedName?_eq_none_of_append hnone)
  have hname : (l.name, column) ∈
      linkColumns (cs.length - rest.length + left.length) (links ++ l :: more) :=
    mem_linkColumns.2 ⟨links, l, more, rfl, rfl, hcolumn⟩
  rw [declaredOn?, hscope, Option.map_some, Option.some.injEq, Prod.mk.injEq] at h
  refine ⟨⟨l.name, column, true, Hint.ofText? (trim value)⟩, ?_, rfl, Hint.ofText?_trim value⟩
  rw [← h.2]
  refine List.mem_flatMap.2 ⟨_, hpiece, ?_⟩
  simp only [declaredIn, hread]
  exact List.mem_map.2 ⟨_, hname, rfl⟩

/-- On a declaration line the hint is read off the rest of the piece. -/
theorem hint_of_mem_declaredOn? {cs value after : List Char} {scope : Scope}
    {mentions : List Mention} (h : declaredOn? cs = some (scope, mentions)) {m : Mention}
    (hm : m ∈ mentions) (hchain : LeadsTo cs m.column (value ++ after))
    (hnone : assignedName? (value ++ after) = none) (hvalue : isClosed 0 value = true)
    (hafter : ∀ c ∈ after.head?, c = ',') :
    m.hint = Hint.ofText? value := by
  obtain ⟨m', hm', hcolumn, hhint⟩ :=
    exists_mem_of_leadsTo h (isDeclaredAt_of_mem_declaredOn? h hm) hchain hnone hvalue hafter
  have hcolumns : (mentions.map Mention.column).Nodup :=
    List.pairwise_map.2 ((declaredOn?_pairwise h).imp Nat.ne_of_lt)
  rw [← hhint, List.inj_on_of_nodup_map hcolumns hm' hm hcolumn]

/-! ### The first occurrence -/

/-- Every variable that is reported is the first occurrence of its name. -/
theorem exists_isFirst_of_mem_findVariables {s : Source} {body : Span} {excluded : List Span}
    {parameters : List Parameter} {v : Variable}
    (h : v ∈ (findVariables s body excluded parameters).toList) :
    ∃ o : Occurrence, o.IsFirst (bodyLines s body excluded) ∧ o.toVariable = v := by
  rw [findVariables, Variables.mem_toList_ofList, mem_firstMentions_iff, ← occurrences_toVariable,
    isFirstOf_iff_of_pairwise (occurrences_pairwise (bodyLines_pairwise s body excluded))] at h
  obtain ⟨-, o, ho, hv, hfirst⟩ := h
  exact ⟨o, ⟨mem_occurrences.1 ho, fun p hp => hfirst p (mem_occurrences.2 hp)⟩, hv⟩

/--
The hint of a name that starts a chain on a line: that of a value of the chain on a declaration
line, where another piece may follow the value, that of all that follows the chain on any other
line, and none if a caught error gets the name there.
-/
def chainHint (cs : List Char) (column : Nat) (value after : List Char) : Option Hint :=
  if (declaredOn? cs).isSome then Hint.ofText? value
  else if (caughtNames cs).any fun m => m.column = column then none
  else Hint.ofText? (value ++ after)

/-- The first occurrence of a name that starts a chain has the hint of its chain. -/
theorem hint_of_isFirst {lines : List BodyLine} {o : Occurrence} (ho : o.IsFirst lines)
    {value after : List Char} (hchain : LeadsTo o.line.text o.mention.column (value ++ after))
    (hnone : assignedName? (value ++ after) = none) (hvalue : isClosed 0 value = true)
    (hafter : ∀ c ∈ after.head?, c = ',') :
    o.mention.hint = chainHint o.line.text o.mention.column value after := by
  obtain ⟨way, line, m⟩ := o
  obtain ⟨⟨hline, hway⟩, hfirst⟩ := ho
  simp only at hway hchain ⊢
  cases way with
  | declared scope =>
      obtain ⟨mentions, hdeclared, hm⟩ := hway
      rw [chainHint, hdeclared, Option.isSome_some, if_pos rfl]
      exact hint_of_mem_declaredOn? hdeclared hm hchain hnone hvalue hafter
  | loop => exact absurd hchain (ne_column_of_mem_loopNames hway.2)
  | caught =>
      obtain ⟨hdeclared, hm⟩ := hway
      have hany : ((caughtNames line.text).any fun c => c.column = m.column) = true :=
        List.any_eq_true.2 ⟨m, hm, by simp⟩
      rw [chainHint, hdeclared, Option.isSome_none, if_neg (by simp), if_pos hany]
      exact (readsOn_of_mem_caughtNames hm).1
  | assigned =>
      obtain ⟨hdeclared, hm⟩ := hway
      have hany : ¬((caughtNames line.text).any fun c => c.column = m.column) = true := by
        intro hany
        obtain ⟨c, hc, hcolumn⟩ := List.any_eq_true.1 hany
        -- the caught name is the same, and comes first
        obtain ⟨-, rest, hreads⟩ := readsOn_of_mem_caughtNames hc
        obtain ⟨rest', value', hreads', -⟩ := readsOn_of_mem_assignedNames hm
        have hname := hreads.name_eq hreads' (by simpa using hcolumn)
        have hbefore := hfirst ⟨.caught, line, c⟩ ⟨hline, hdeclared, hc⟩ (by
          rw [Occurrence.key_eq, Occurrence.key_eq, hname])
        rcases hbefore with heq | hprecedes
        · simp at heq
        · simp [Occurrence.Precedes, Way.isDeclaration, Way.place] at hprecedes
      rw [chainHint, hdeclared, Option.isSome_none, if_neg (by simp), if_neg hany]
      exact hint_of_mem_assignedNames hm hchain hnone

end ScriptOutline
