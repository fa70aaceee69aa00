/-
**Lines that are made of chains.**

A line may be made of nothing but chains of assignments with commas between them, with or without
the keyword of a scope in front.  Two readers go over such lines.  A declaration line is cut at its
commas and each piece is read link by link; on any other line every place is tried as the start of
an assignment.  Both find the names of all links, each at its column.

Main definitions:

* `isClosed` — every bracket of a text is closed, and no comma stands outside of brackets;
* `Chain`, `chainsText`, `chainColumns` — chains, their text and their names with columns;
* `Modifier`, `ChainLine` — the keyword of a scope, and a line of chains;
* `InitializesAt` — mentions are of given names at given columns, all with an initializer.

Main results:

* `piecesFrom_chains` — the chains of a line are its pieces;
* `initializesAt_declaredIn_chains` — a declaration line finds the names of its chains;
* `initializesAt_assignmentsFrom_chains` — so does any other line;
* `ChainLine.exists_mentions` — what a line of chains mentions.
-/

import ScriptOutline.Declaration
import ScriptOutline.Proofs.AssignedNames

set_option relaxedAutoImplicit false
set_option autoImplicit false

namespace ScriptOutline

/-! ### Closed texts -/

/--
Whether every bracket of a text is closed and every closing bracket has been opened, and no comma
stands outside of brackets, `depth` being open.
-/
def isClosed (depth : Nat) : List Char → Bool
  | [] => depth = 0
  | c :: rest => !(depth = 0 && (c = ',' || isCloser c)) && isClosed (charStep depth c) rest

theorem foldl_charStep_of_isClosed {depth : Nat} {cs : List Char} (h : isClosed depth cs = true) :
    cs.foldl charStep depth = 0 := by
  induction cs generalizing depth with
  | nil => simpa [isClosed] using h
  | cons c rest ih => exact ih (Bool.and_eq_true_iff.1 h).2

/-- A closed text is one piece. -/
theorem piecesFrom_of_isClosed {depth : Nat} {cs : List Char} (h : isClosed depth cs = true) :
    piecesFrom depth cs = [cs] := by
  induction cs generalizing depth with
  | nil => rfl
  | cons c rest ih =>
      obtain ⟨hc, hrest⟩ := Bool.and_eq_true_iff.1 h
      have hcomma : ¬(depth = 0 ∧ c = ',') := by
        rintro ⟨rfl, rfl⟩
        exact absurd hc (by decide)
      obtain ⟨piece, pieces, hpieces, hcons⟩ := piecesFrom_cons hcomma rest
      rw [ih hrest, List.cons.injEq] at hpieces
      rw [hcons, ← hpieces.1, ← hpieces.2]

/-- Characters that are no brackets leave the depth as it is. -/
theorem foldl_charStep_of_plain {cs : List Char}
    (h : ∀ c ∈ cs, c ≠ ',' ∧ ∀ depth, charStep depth c = depth) (depth : Nat) :
    cs.foldl charStep depth = depth := by
  induction cs with
  | nil => rfl
  | cons c rest ih =>
      obtain ⟨hc, hrest⟩ := List.forall_mem_cons.1 h
      rw [List.foldl_cons, hc.2, ih hrest]

/-- A text without commas and brackets is closed. -/
theorem isClosed_of_plain {cs : List Char}
    (h : ∀ c ∈ cs, c ≠ ',' ∧ ∀ depth, charStep depth c = depth) : isClosed 0 cs = true := by
  induction cs with
  | nil => rfl
  | cons c rest ih =>
      obtain ⟨⟨hcomma, hstep⟩, hrest⟩ := List.forall_mem_cons.1 h
      have hcloser : isCloser c = false := by
        by_contra hc
        have hone := hstep 1
        unfold charStep at hone
        split at hone <;> simp_all
      simp [isClosed, hcomma, hcloser, hstep, ih hrest]

/-! ### Chains -/

/-- A text without a mark assigns to no name. -/
theorem assignedName?_of_unmarked {cs : List Char} (h : ¬[':', '='] <:+: cs) :
    assignedName? cs = none := by
  cases hname : assignedName? cs with
  | none => rfl
  | some found =>
      obtain ⟨l, -, hcs⟩ := exists_link hname
      refine absurd ⟨l.lead ++ (l.name ++ l.gap), found.2, ?_⟩ h
      rw [hcs, l.text_append]
      simp

/--
A chain of assignments: one or more links, and a value that is closed and has no mark.  The value
may as well be blank.
-/
structure Chain where
  links : List Link
  value : List Char
  links_ne_nil : links ≠ []
  value_closed : isClosed 0 value = true
  value_unmarked : ¬[':', '='] <:+: value

/-- The text of a chain. -/
def Chain.text (c : Chain) : List Char :=
  c.links.flatMap Link.text ++ c.value

/-- The text of chains, with a comma between each two. -/
def chainsText (chains : List Chain) : List Char :=
  List.intercalate [','] (chains.map Chain.text)

theorem chainsText_singleton (c : Chain) :
    chainsText [c] = c.links.flatMap Link.text ++ c.value := by
  simp [chainsText, Chain.text]

theorem chainsText_cons_cons (c d : Chain) (chains : List Chain) :
    chainsText (c :: d :: chains) =
      c.links.flatMap Link.text ++ (c.value ++ ',' :: chainsText (d :: chains)) := by
  simp [chainsText, Chain.text]

theorem chainsText_cons (c : Chain) (chains : List Chain) :
    ∃ rest, chainsText (c :: chains) = c.text ++ rest := by
  cases chains with
  | nil => exact ⟨[], by simp [chainsText]⟩
  | cons d chains => exact ⟨',' :: chainsText (d :: chains), by simp [chainsText]⟩

/-- Chains start with a link. -/
theorem exists_chainsText_eq_link {chains : List Chain} (hne : chains ≠ []) :
    ∃ c ∈ chains, ∃ l ∈ c.links, ∃ rest, chainsText chains = l.text ++ rest := by
  obtain ⟨c, chains, rfl⟩ := List.exists_cons_of_ne_nil hne
  obtain ⟨l, links, hlinks⟩ := List.exists_cons_of_ne_nil c.links_ne_nil
  obtain ⟨rest, hrest⟩ := chainsText_cons c chains
  refine ⟨c, List.mem_cons_self, l, by simp [hlinks],
    links.flatMap Link.text ++ c.value ++ rest, ?_⟩
  rw [hrest, Chain.text, hlinks]
  simp

/-- The names of chains that start at a column, with their columns. -/
def chainColumns (column : Nat) : List Chain → List (List Char × Nat)
  | [] => []
  | c :: rest => linkColumns column c.links ++ chainColumns (column + c.text.length + 1) rest

/-- The chains of a text are its pieces. -/
theorem piecesFrom_chains {chains : List Chain} (hne : chains ≠ []) :
    piecesFrom 0 (chainsText chains) = chains.map Chain.text := by
  have hpiece (c : Chain) : piecesFrom 0 c.text = [c.text] :=
    piecesFrom_append_plain (fun _ hd => charStep_of_mem_links hd)
      (piecesFrom_of_isClosed c.value_closed)
  induction chains with
  | nil => exact absurd rfl hne
  | cons c chains ih =>
      cases chains with
      | nil =>
          rw [chainsText_singleton]
          exact hpiece c
      | cons d chains =>
          have hclosed : c.text.foldl charStep 0 = 0 := by
            rw [Chain.text, List.foldl_append,
              foldl_charStep_of_plain fun _ hd => charStep_of_mem_links hd]
            exact foldl_charStep_of_isClosed c.value_closed
          rw [chainsText_cons_cons, ← List.append_assoc, ← Chain.text,
            piecesFrom_append_comma hclosed, hpiece, ih (by simp)]
          rfl

/-! ### Mentions of the names of chains -/

/-- Mentions are of given names at given columns, and all of them have an initializer. -/
def InitializesAt (ms : List Mention) (names : List (List Char × Nat)) : Prop :=
  ms.map (fun m => (m.name, m.column, m.hasInitializer)) =
    names.map fun (name, column) => (name, column, true)

theorem InitializesAt.append {ms ms' : List Mention} {names names' : List (List Char × Nat)}
    (h : InitializesAt ms names) (h' : InitializesAt ms' names') :
    InitializesAt (ms ++ ms') (names ++ names') := by
  unfold InitializesAt at h h' ⊢
  rw [List.map_append, List.map_append, h, h']

theorem InitializesAt.names_eq {ms : List Mention} {names : List (List Char × Nat)}
    (h : InitializesAt ms names) : names = ms.map fun m => (m.name, m.column) := by
  have hfirst := congrArg (List.map fun x : List Char × Nat × Bool => (x.1, x.2.1)) h
  rw [List.map_map, List.map_map] at hfirst
  exact (hfirst.trans (List.map_id names)).symm

theorem InitializesAt.hasInitializer {ms : List Mention} {names : List (List Char × Nat)}
    (h : InitializesAt ms names) {m : Mention} (hm : m ∈ ms) : m.hasInitializer = true := by
  have hmem : (m.name, m.column, m.hasInitializer) ∈
      names.map fun (name, column) => (name, column, true) := by
    rw [← h]
    exact List.mem_map_of_mem hm
  obtain ⟨x, -, hx⟩ := List.mem_map.1 hmem
  exact (congrArg (fun y : List Char × Nat × Bool => y.2.2) hx).symm

/-- The piece of a chain mentions the names of its links. -/
theorem initializesAt_declaredIn_chain (column : Nat) (c : Chain) :
    InitializesAt (declaredIn column c.text) (linkColumns column c.links) := by
  have hread := readChain_links column c.links_ne_nil (assignedName?_of_unmarked c.value_unmarked)
  unfold InitializesAt declaredIn
  rw [Chain.text, hread, List.map_map]
  rfl

/-- The pieces of chains mention the names of all links. -/
theorem initializesAt_declaredIn_chains (column : Nat) (chains : List Chain) :
    InitializesAt ((withColumns column (chains.map Chain.text)).flatMap fun (column, piece) =>
      declaredIn column piece) (chainColumns column chains) := by
  induction chains generalizing column with
  | nil => rfl
  | cons c chains ih =>
      exact (initializesAt_declaredIn_chain column c).append (ih (column + c.text.length + 1))

/-! ### Chains behind a keyword -/

/-- A link without the blanks in front of its name. -/
def Link.bare (l : Link) : Link :=
  { l with lead := [], lead_blank := isBlank_of_mem_nil }

theorem Link.text_eq_bare (l : Link) : l.text = l.lead ++ l.bare.text := rfl

theorem Link.bare_text (l : Link) : l.bare.text = l.name ++ (l.gap ++ [':', '=']) := rfl

/-- Blanks in front of the first name of chains may as well stand before the chains. -/
theorem exists_bare_chains {chains : List Chain} (hne : chains ≠ []) :
    ∃ (lead : List Char) (bare : List Chain), bare ≠ [] ∧ (∀ c ∈ lead, isBlank c = true) ∧
      chainsText chains = lead ++ chainsText bare ∧
      (∃ c ∈ (chainsText bare).head?, isBlank c = false) ∧
      ∀ column, chainColumns column chains = chainColumns (column + lead.length) bare := by
  obtain ⟨c, chains, rfl⟩ := List.exists_cons_of_ne_nil hne
  obtain ⟨l, links, hlinks⟩ := List.exists_cons_of_ne_nil c.links_ne_nil
  obtain ⟨first, hfirst, hvalue⟩ : ∃ first : Chain, first.links = l.bare :: links ∧
      first.value = c.value :=
    ⟨{ c with links := l.bare :: links, links_ne_nil := by simp }, rfl, rfl⟩
  have htext : c.text = l.lead ++ first.text := by
    simp only [Chain.text, hlinks, hfirst, hvalue, List.flatMap_cons, l.text_eq_bare,
      List.append_assoc]
  refine ⟨l.lead, first :: chains, by simp, l.lead_blank, ?_, ?_, ?_⟩
  · cases chains with
    | nil => simp [chainsText, htext]
    | cons d chains => simp [chainsText, htext]
  · obtain ⟨rest, hrest⟩ := chainsText_cons first chains
    obtain ⟨d, tail, hname, hd, -⟩ := exists_cons_of_isIdentifier l.name_identifier
    refine ⟨d, ?_, not_isBlank_of_isWordChar (isWordChar_of_isIdentifierStart hd)⟩
    rw [hrest, Chain.text, hfirst, List.flatMap_cons, l.bare_text, hname]
    rfl
  · intro column
    have hlinkColumns : linkColumns column c.links =
        linkColumns (column + l.lead.length) first.links := by
      rw [hlinks, hfirst, linkColumns, linkColumns, l.text_eq_bare, List.length_append,
        ← Nat.add_assoc]
      rfl
    rw [chainColumns, chainColumns, hlinkColumns, htext, List.length_append, ← Nat.add_assoc]

/-- The keyword of a scope in any case of the letters, and the blanks behind it. -/
structure Modifier where
  scope : Scope
  word : List Char
  gap : List Char
  word_keyword : asciiLowercaseChars word = scope.keyword.toList
  gap_blank : ∀ c ∈ gap, isBlank c = true
  gap_ne_nil : gap ≠ []

/-- A property of the letters of the basic alphabet holds of each of them. -/
theorem forall_of_isAlpha {p : Char → Bool}
    (h : (List.range' 65 26 ++ List.range' 97 26).all (fun n => p (Char.ofNat n)) = true) {c : Char}
    (hc : c.isAlpha = true) : p c = true := by
  have hmem : c.toNat ∈ List.range' 65 26 ++ List.range' 97 26 := by
    rw [List.mem_append, List.mem_range'_1, List.mem_range'_1]
    refine (Bool.or_eq_true_iff.1 hc).imp (fun hupper => ?_) (fun hlower => ?_)
    · obtain ⟨hlow, hhigh⟩ := of_decide_eq_true hupper
      exact ⟨UInt32.le_iff_toNat_le.1 hlow, Nat.lt_succ_of_le (UInt32.le_iff_toNat_le.1 hhigh)⟩
    · obtain ⟨hlow, hhigh⟩ := Bool.and_eq_true_iff.1 hlower
      exact ⟨UInt32.le_iff_toNat_le.1 (of_decide_eq_true hlow),
        Nat.lt_succ_of_le (UInt32.le_iff_toNat_le.1 (of_decide_eq_true hhigh))⟩
  have hp := List.all_eq_true.1 h c.toNat hmem
  rwa [Char.ofNat_toNat] at hp

/-- The letters of the basic alphabet are word characters. -/
theorem isWordChar_of_isAlpha {c : Char} (h : c.isAlpha = true) : isWordChar c = true :=
  forall_of_isAlpha (by decide +kernel) h

/-- What has small letters of the basic alphabet is made of its letters. -/
theorem isAlpha_of_asciiLowercaseChars {word cs : List Char}
    (hword : (word.all Char.isAlpha) = true) (h : asciiLowercaseChars cs = word) {c : Char}
    (hc : c ∈ cs) : c.isAlpha = true := by
  have hmem : c.toLower ∈ word := by
    rw [← h]
    exact List.mem_map_of_mem hc
  have hlower : c.toLower.isAlpha = true := List.all_eq_true.1 hword _ hmem
  by_cases hupper : c.isUpper = true
  · exact Bool.or_eq_true_iff.2 (Or.inl hupper)
  · have hsame : c.toLower = c := dif_neg fun hrange => hupper (decide_eq_true hrange)
    rwa [hsame] at hlower

/-- What has small letters of the basic alphabet is a word. -/
theorem isWordChar_of_asciiLowercaseChars {word cs : List Char}
    (hword : (word.all Char.isAlpha) = true) (h : asciiLowercaseChars cs = word) {c : Char}
    (hc : c ∈ cs) : isWordChar c = true :=
  isWordChar_of_isAlpha (isAlpha_of_asciiLowercaseChars hword h hc)

theorem Scope.keyword_all_isAlpha (scope : Scope) :
    (scope.keyword.toList.all Char.isAlpha) = true := by
  cases scope <;> decide

/-- The word of a scope at the start of a line, behind blanks, declares variables of that scope. -/
theorem Modifier.scopeOf?_eq (m : Modifier) {lead cs : List Char}
    (hlead : ∀ c ∈ lead, isBlank c = true) (hcs : ∃ c ∈ cs.head?, isBlank c = false)
    {blanks : List Char} (hblanks : ∀ c ∈ blanks, isBlank c = true) :
    scopeOf? (lead ++ (m.word ++ (m.gap ++ (blanks ++ cs)))) = some (m.scope, cs) := by
  have hink : ∀ c ∈ m.word, (!isBlank c) = true := by
    intro c hc
    have hword := isWordChar_of_asciiLowercaseChars m.scope.keyword_all_isAlpha m.word_keyword hc
    rw [not_isBlank_of_isWordChar hword]
    rfl
  obtain ⟨g, gap, hgap⟩ := List.exists_cons_of_ne_nil m.gap_ne_nil
  have hg : isBlank g = true := m.gap_blank g (by rw [hgap]; exact List.mem_cons_self)
  obtain ⟨c, hc, hcink⟩ := hcs
  obtain ⟨rest, rfl⟩ := List.head?_eq_some_iff.1 hc
  have hword : m.word ≠ [] := by
    intro hnil
    have hkeyword := m.word_keyword
    rw [hnil] at hkeyword
    cases hscope : m.scope <;> simp [hscope, asciiLowercaseChars, Scope.keyword] at hkeyword
  obtain ⟨w, word, hw⟩ := List.exists_cons_of_ne_nil hword
  have hstart : trimStart (lead ++ (m.word ++ (m.gap ++ (blanks ++ c :: rest)))) =
      m.word ++ (m.gap ++ (blanks ++ c :: rest)) := by
    rw [trimStart_blanks hlead, hw]
    refine trimStart_of_head ?_
    rintro d ⟨⟩
    simpa [hw] using hink w
  have hkeyword : Scope.ofKeyword? (String.ofList m.word) = some m.scope := by
    rw [← m.scope.ofKeyword?_keyword, Scope.ofKeyword?, Scope.ofKeyword?, asciiLowercase,
      asciiLowercase, String.toList_ofList, m.word_keyword]
    cases m.scope <;> rfl
  have hrest : trimStart (m.gap ++ (blanks ++ c :: rest)) = c :: rest := by
    rw [trimStart_blanks m.gap_blank, trimStart_blanks hblanks]
    refine trimStart_of_head ?_
    rintro d ⟨⟩
    exact hcink
  have hstop : (m.gap ++ (blanks ++ c :: rest)).takeWhile (fun d => !isBlank d) = [] ∧
      (m.gap ++ (blanks ++ c :: rest)).dropWhile (fun d => !isBlank d) =
        m.gap ++ (blanks ++ c :: rest) := by
    rw [hgap]
    simp [hg]
  simp only [scopeOf?, hstart, List.takeWhile_append_of_pos hink,
    List.dropWhile_append_of_pos hink, hstop, List.append_nil, hkeyword, hrest, List.isEmpty_cons,
    Bool.false_eq_true, if_false]

/-- Behind the word of a scope the names of chains are declared. -/
theorem Modifier.exists_declaredOn?_chains (m : Modifier) {lead : List Char}
    (hlead : ∀ c ∈ lead, isBlank c = true) {chains : List Chain} (hne : chains ≠ []) :
    ∃ ms, declaredOn? (lead ++ (m.word ++ (m.gap ++ chainsText chains))) = some (m.scope, ms) ∧
      InitializesAt ms (chainColumns (lead ++ (m.word ++ m.gap)).length chains) := by
  obtain ⟨blanks, bare, hbare, hblanks, htext, hhead, hcolumns⟩ := exists_bare_chains hne
  have hscope := m.scopeOf?_eq hlead hhead hblanks
  have hlength : (lead ++ (m.word ++ (m.gap ++ (blanks ++ chainsText bare)))).length -
      (chainsText bare).length = (lead ++ (m.word ++ m.gap)).length + blanks.length := by
    simp only [List.length_append]
    omega
  refine ⟨_, by rw [htext, declaredOn?, hscope, Option.map_some], ?_⟩
  rw [hcolumns, hlength, splitPieces, piecesFrom_chains hbare]
  exact initializesAt_declaredIn_chains _ bare

/-! ### Chains without a keyword -/

/-- A word of small letters at the start of a text is its first name, or a part of it. -/
theorem afterWord?_append_name {word name rest tail : List Char}
    (hword : (word.all fun letter => letter.isAlpha && letter ≠ 's' && letter ≠ 'k') = true)
    (hname : ∀ c ∈ name, isWordChar c = true) (htail : tail.head?.any isWordChar = false)
    (h : afterWord? word (name ++ tail) = some rest) :
    asciiLowercaseChars name = word ∨ rest.head?.any isWordChar = true := by
  induction word generalizing name with
  | nil =>
      simp only [afterWord?, Option.some.injEq] at h
      cases name with
      | nil => exact Or.inl rfl
      | cons c name =>
          rw [← h]
          exact Or.inr (hname c List.mem_cons_self)
  | cons letter word ih =>
      simp only [List.all_cons, Bool.and_eq_true, decide_eq_true_eq] at hword
      obtain ⟨⟨⟨halpha, hs⟩, hk⟩, hword⟩ := hword
      have hfolds {c : Char} (hc : foldsTo letter c = true) : c.toLower = letter := by
        simpa [foldsTo, hs, hk] using hc
      cases name with
      | nil =>
          cases tail with
          | nil => simp [afterWord?] at h
          | cons c tail =>
              simp only [List.nil_append, afterWord?] at h
              split at h
              · next hc =>
                  have hletter : asciiLowercaseChars [c] = [letter] := by
                    simp [asciiLowercaseChars, hfolds hc]
                  have hsmall : isWordChar c = true :=
                    isWordChar_of_asciiLowercaseChars (by simpa using halpha) hletter
                      List.mem_cons_self
                  simp [hsmall] at htail
              · simp at h
      | cons c name =>
          simp only [List.cons_append, afterWord?] at h
          split at h
          · next hc =>
              refine (ih (by simpa using hword) (fun d hd => hname d (List.mem_cons_of_mem c hd))
                h).imp_left ?_
              intro hlower
              rw [asciiLowercaseChars, List.map_cons, hfolds hc, ← hlower]
              rfl
          · simp at h

/-- A name whose small letters are a reserved word is a keyword. -/
theorem isKeyword_of_asciiLowercaseChars {name : List Char} {word : String}
    (hword : word ∈ keywords) (h : asciiLowercaseChars name = word.toList) :
    isKeyword (String.ofList name) = true := by
  rw [isKeyword, asciiLowercase, String.toList_ofList, h, String.ofList_toList]
  exact List.contains_iff_mem.2 hword

theorem Scope.keyword_of_ofKeyword? {word : String} {scope : Scope}
    (h : ofKeyword? word = some scope) : asciiLowercase word = scope.keyword := by
  simp only [ofKeyword?] at h
  split at h
  · next heq =>
      rw [← Option.some.inj h]
      exact heq
  · split at h
    · next heq =>
        rw [← Option.some.inj h]
        exact heq
    · split at h
      · next heq =>
          rw [← Option.some.inj h]
          exact heq
      · simp at h

theorem Scope.keyword_mem_keywords (scope : Scope) : scope.keyword ∈ keywords := by
  cases scope <;> decide

section

variable {lead name tail : List Char} (hlead : ∀ c ∈ lead, isBlank c = true)
  (hname : isIdentifier name = true) (hfree : isKeyword (String.ofList name) = false)
  (htail : tail.head?.any isWordChar = false)

include hname htail in
/-- The first run of characters without blanks is a word only if it is the first name. -/
theorem takeWhile_ink_eq_name
    (hword : ∀ c ∈ (name ++ tail).takeWhile fun c => !isBlank c, isWordChar c = true) :
    ((name ++ tail).takeWhile fun c => !isBlank c) = name := by
  have hink : ∀ c ∈ name, (!isBlank c) = true := by
    intro c hc
    rw [not_isBlank_of_isWordChar (isWordChar_of_mem hname hc)]
    rfl
  rw [List.takeWhile_append_of_pos hink] at hword ⊢
  cases tail with
  | nil => simp
  | cons c tail =>
      have hc : isWordChar c = false := by simpa using htail
      cases hblank : isBlank c with
      | true => simp [hblank]
      | false =>
          have hmem := hword c (by simp [hblank])
          rw [hc] at hmem
          exact Bool.noConfusion hmem

include hname hfree htail in
/-- A reserved word in front of a text is no more than a part of its first name. -/
theorem head_of_afterWord? {word : String} (hword : word ∈ keywords)
    (hletters :
      (word.toList.all fun letter => letter.isAlpha && letter ≠ 's' && letter ≠ 'k') = true)
    {rest : List Char} (h : afterWord? word.toList (name ++ tail) = some rest) :
    rest.head?.any isWordChar = true := by
  rcases afterWord?_append_name hletters (fun c => isWordChar_of_mem hname) htail h
    with hlower | hhead
  · rw [isKeyword_of_asciiLowercaseChars hword hlower] at hfree
    exact Bool.noConfusion hfree
  · exact hhead

include hlead hname hfree htail

/-- A line that starts with a name that is no keyword declares nothing. -/
theorem declaredOn?_of_name : declaredOn? (lead ++ (name ++ tail)) = none := by
  have hstart : trimStart (lead ++ (name ++ tail)) = name ++ tail := by
    rw [trimStart_blanks hlead, trimStart_identifier hname]
  rw [declaredOn?_eq_none_iff, scopeOf?, hstart]
  cases hscope : Scope.ofKeyword?
      (String.ofList ((name ++ tail).takeWhile fun c => !isBlank c)) with
  | none => rfl
  | some scope =>
      have hlower := congrArg String.toList (Scope.keyword_of_ofKeyword? hscope)
      rw [asciiLowercase, String.toList_ofList, String.toList_ofList] at hlower
      rw [takeWhile_ink_eq_name hname htail fun _ hc =>
        isWordChar_of_asciiLowercaseChars scope.keyword_all_isAlpha hlower hc] at hlower
      rw [isKeyword_of_asciiLowercaseChars scope.keyword_mem_keywords hlower] at hfree
      exact Bool.noConfusion hfree

/-- Such a line is no loop. -/
theorem loopNames_of_name : loopNames (lead ++ (name ++ tail)) = [] := by
  have hstart : trimStart (lead ++ (name ++ tail)) = name ++ tail := by
    rw [trimStart_blanks hlead, trimStart_identifier hname]
  have hfor : afterFor? (lead ++ (name ++ tail)) = none := by
    rw [afterFor?, hstart]
    cases hrest : afterWord? "for".toList (name ++ tail) with
    | none => rfl
    | some rest =>
        have hhead := head_of_afterWord? hname hfree htail (by decide) (by decide) hrest
        cases rest with
        | nil => simp at hhead
        | cons c rest =>
            have hc : isWordChar c = true := by simpa using hhead
            have hblank := not_isBlank_of_isWordChar hc
            have hparen : c ≠ '(' := by
              rintro rfl
              exact absurd hc (by decide +kernel)
            simp [trimStart, hblank, hparen, afterBlanks?]
  simp [loopNames, hfor]

/-- Such a line catches no error. -/
theorem caughtNames_of_name : caughtNames (lead ++ (name ++ tail)) = [] := by
  have hstart : trimStart (lead ++ (name ++ tail)) = name ++ tail := by
    rw [trimStart_blanks hlead, trimStart_identifier hname]
  obtain ⟨c, rest, hcons, hc, -⟩ := exists_cons_of_isIdentifier hname
  have hbrace : c ≠ '\x7d' := by
    rintro rfl
    exact absurd hc (by decide +kernel)
  have hcatch : afterCatch? (lead ++ (name ++ tail)) = none := by
    cases hrest : afterWord? "catch".toList (name ++ tail) with
    | none =>
        rw [hcons, List.cons_append] at hstart hrest ⊢
        simp only [afterCatch?, hstart, List.cons.injEq, hbrace, false_and, imp_self, implies_true,
          hrest]
    | some rest =>
        have hhead := head_of_afterWord? hname hfree htail (by decide) (by decide) hrest
        rw [hcons, List.cons_append] at hstart hrest ⊢
        simp only [afterCatch?, hstart, List.cons.injEq, hbrace, false_and, imp_self, implies_true,
          hrest, hhead, if_true]
  simp [caughtNames, hcatch]

end

/-! ### Assignments of chains -/

section

variable {prev : Option Char} {column : Nat} {rest : List Char}

/-- Nothing starts at a character that is in no word, and no name goes on behind it. -/
theorem assignmentsFrom_cons {c : Char} (hc : isWordChar c = false) (inName : Bool) :
    assignmentsFrom inName prev column (c :: rest) =
      assignmentsFrom false (some c) (column + 1) rest := by
  have hstart : isIdentifierStart c = false := by
    cases h : isIdentifierStart c with
    | false => rfl
    | true =>
        rw [isWordChar_of_isIdentifierStart h] at hc
        exact Bool.noConfusion hc
  simp [assignmentsFrom, assignmentAt, identifier?, hc, hstart]

/-- Characters that are in no word are passed over. -/
theorem assignmentsFrom_append_cons {xs : List Char} (hxs : ∀ c ∈ xs, isWordChar c = false)
    {c : Char} (hc : isWordChar c = false) (inName : Bool) :
    assignmentsFrom inName prev column (xs ++ c :: rest) =
      assignmentsFrom false (some c) (column + (xs ++ [c]).length) rest := by
  induction xs generalizing inName prev column with
  | nil => exact assignmentsFrom_cons hc inName
  | cons x xs ih =>
      obtain ⟨hx, hxs⟩ := List.forall_mem_cons.1 hxs
      rw [List.cons_append, assignmentsFrom_cons hx, ih hxs, List.cons_append, List.length_cons,
        Nat.add_right_comm, Nat.add_assoc]

/-- The rest of a name is passed over. -/
theorem assignmentsFrom_word {xs : List Char} (hxs : ∀ c ∈ xs, isWordChar c = true) :
    assignmentsFrom true prev column (xs ++ rest) =
      assignmentsFrom true (xs.getLast?.or prev) (column + xs.length) rest := by
  induction xs generalizing prev column with
  | nil => rfl
  | cons x xs ih =>
      obtain ⟨hx, hxs⟩ := List.forall_mem_cons.1 hxs
      simp only [List.cons_append, assignmentsFrom, hx, Bool.and_self, if_true]
      rw [ih hxs, getLast?_cons_or, List.length_cons, Nat.add_right_comm, Nat.add_assoc]

variable (column rest)

/-- Blanks are passed over, and a name may follow them. -/
theorem exists_assignmentsFrom_blanks {blanks : List Char} (h : ∀ c ∈ blanks, isBlank c = true)
    (hprev : admitsName prev = true) :
    ∃ before, admitsName before = true ∧ assignmentsFrom false prev column (blanks ++ rest) =
      assignmentsFrom false before (column + blanks.length) rest := by
  rcases List.eq_nil_or_concat blanks with rfl | ⟨init, b, rfl⟩
  · exact ⟨prev, hprev, rfl⟩
  · refine ⟨some b, admitsName_of_isBlank (h b (by simp)), ?_⟩
    have hblank : ∀ c ∈ init ++ [b], isWordChar c = false := by
      intro c hc
      exact not_isWordChar_of_isBlank (h c (by simpa using hc))
    rw [List.concat_eq_append, List.append_assoc, List.singleton_append]
    exact assignmentsFrom_append_cons (fun c hc => hblank c (by simp [hc])) (hblank b (by simp))
      false

/-- The name of a link is found. -/
theorem assignmentsFrom_link (l : Link) (hprev : admitsName prev = true) :
    assignmentsFrom false prev column (l.text ++ rest) =
      ⟨l.name, column + l.lead.length, true, valueHint? rest⟩ ::
        assignmentsFrom false (some '=') (column + l.text.length) rest := by
  obtain ⟨before, hbefore, hlead⟩ := exists_assignmentsFrom_blanks column
    (l.name ++ (l.gap ++ ':' :: '=' :: rest)) l.lead_blank hprev
  have hread := identifier?_append_of_identifier l.name_identifier
    (not_isWordChar_head_of_mark l.gap_blank ('=' :: rest))
  obtain ⟨c, tail, hname, hc, htail⟩ := exists_cons_of_isIdentifier l.name_identifier
  have hlength : column + l.text.length =
      column + l.lead.length + 1 + tail.length + (l.gap ++ [':', '=']).length := by
    simp only [Link.text, hname, List.length_append, List.length_cons, List.length_nil]
    omega
  have hmark : ∀ d ∈ l.gap ++ [':'], isWordChar d = false := by
    intro d hd
    rcases List.mem_append.1 hd with hd | hd
    · exact not_isWordChar_of_isBlank (l.gap_blank d hd)
    · rw [List.mem_singleton.1 hd]
      decide
  have hsplit : l.gap ++ ':' :: '=' :: rest = l.gap ++ [':'] ++ '=' :: rest := by simp
  rw [l.text_append, hlead, hlength]
  rw [hname, List.cons_append] at hread ⊢
  simp only [assignmentsFrom, Bool.false_and, Bool.false_eq_true, if_false, assignmentAt, hread,
    afterAssign?_mark l.gap_blank, hbefore, if_true, hc, List.singleton_append]
  rw [assignmentsFrom_word htail, hsplit, assignmentsFrom_append_cons hmark (by decide)]
  simp

/-- The names of links are found, and a name may follow the last mark. -/
theorem exists_assignmentsFrom_links (links : List Link) (hprev : admitsName prev = true) :
    ∃ ms before, admitsName before = true ∧ InitializesAt ms (linkColumns column links) ∧
      assignmentsFrom false prev column (links.flatMap Link.text ++ rest) =
        ms ++ assignmentsFrom false before (column + (links.flatMap Link.text).length) rest := by
  induction links generalizing prev column with
  | nil => exact ⟨[], prev, hprev, rfl, rfl⟩
  | cons l links ih =>
      have hlink := assignmentsFrom_link column (links.flatMap Link.text ++ rest) l hprev
      have hequals : admitsName (some '=') = true := by decide +kernel
      obtain ⟨ms, before, hbefore, hms, hlinks⟩ := ih (column + l.text.length) hequals
      refine ⟨⟨l.name, column + l.lead.length, true,
        valueHint? (links.flatMap Link.text ++ rest)⟩ :: ms, before, hbefore, ?_, ?_⟩
      · unfold InitializesAt at hms ⊢
        rw [linkColumns, List.map_cons, List.map_cons, hms]
      · rw [List.flatMap_cons, List.append_assoc, hlink, hlinks, List.length_append,
          List.cons_append, Nat.add_assoc]

variable {rest}

/-- Where no mark comes before the next comma or the end, no assignment starts. -/
theorem assignmentAt_of_unmarked {cs : List Char} (h : ¬[':', '='] <:+: cs)
    (hrest : ∀ c ∈ rest.head?, c = ',') (prev : Option Char) :
    assignmentAt prev column (cs ++ rest) = [] := by
  unfold assignmentAt
  split
  · rfl
  · next name after hname =>
      split
      · rfl
      · next value hvalue =>
          obtain ⟨hcs, hidentifier, -⟩ := identifier?_spec hname
          obtain ⟨gap, rfl, hgap⟩ := afterAssign?_eq_some hvalue
          let l : Link := ⟨[], name, gap, by simp, hidentifier, hgap⟩
          have hlink : cs ++ rest = l.text ++ value := by
            rw [hcs, l.text_append]
            rfl
          have hmark : [':', '='] <:+: l.text := ⟨name ++ gap, [], by simp [l, Link.text]⟩
          -- the text ends inside of the assignment only if a comma follows, and there is none
          rcases List.append_eq_append_iff.1 hlink with ⟨inner, htext, hinner⟩ | ⟨inner, htext, -⟩
          · cases inner with
            | nil =>
                rw [htext, List.append_nil] at hmark
                exact absurd hmark h
            | cons c inner =>
                obtain rfl : c = ',' := hrest c (by rw [hinner]; rfl)
                have hcomma : ',' ∈ [l].flatMap Link.text := by
                  rw [List.flatMap_singleton, htext]
                  simp
                exact absurd rfl (charStep_of_mem_links hcomma).1
          · rw [htext] at h
            exact absurd (hmark.trans (List.prefix_append _ _).isInfix) h

/-- A text without a mark is passed over up to a comma. -/
theorem exists_assignmentsFrom_unmarked {cs : List Char} (h : ¬[':', '='] <:+: cs)
    (hrest : ∀ c ∈ rest.head?, c = ',') (inName : Bool) (prev : Option Char) :
    ∃ inName' before, assignmentsFrom inName prev column (cs ++ rest) =
      assignmentsFrom inName' before (column + cs.length) rest := by
  induction cs generalizing inName prev column with
  | nil => exact ⟨inName, prev, rfl⟩
  | cons c cs ih =>
      have htail : ¬[':', '='] <:+: cs := fun hcs => h (hcs.trans (List.suffix_cons c cs).isInfix)
      have hat := assignmentAt_of_unmarked column h hrest prev
      rw [List.cons_append] at hat ⊢
      simp only [assignmentsFrom, hat, List.nil_append]
      rw [List.length_cons, Nat.add_comm cs.length, ← Nat.add_assoc]
      split
      · exact ih (column + 1) htail true (some c)
      · exact ih (column + 1) htail _ (some c)

end

/-- On a line without a declaration the names of all links are found. -/
theorem initializesAt_assignmentsFrom_chains (chains : List Chain) {prev : Option Char}
    (hprev : admitsName prev = true) (column : Nat) :
    InitializesAt (assignmentsFrom false prev column (chainsText chains))
      (chainColumns column chains) := by
  induction chains generalizing prev column with
  | nil => rfl
  | cons c chains ih =>
      have hlength : column + (c.links.flatMap Link.text).length + c.value.length =
          column + c.text.length := by
        rw [Chain.text, List.length_append, Nat.add_assoc]
      cases chains with
      | nil =>
          have hend : ∀ d ∈ ([] : List Char).head?, d = ',' := by simp
          obtain ⟨ms, before, -, hms, hlinks⟩ :=
            exists_assignmentsFrom_links column c.value c.links hprev
          obtain ⟨inName, before', hvalue⟩ := exists_assignmentsFrom_unmarked
            (column + (c.links.flatMap Link.text).length) c.value_unmarked hend false before
          rw [chainsText_singleton, hlinks]
          rw [List.append_nil] at hvalue
          rw [hvalue]
          exact hms.append rfl
      | cons d chains =>
          have hcomma : ∀ e ∈ (',' :: chainsText (d :: chains)).head?, e = ',' := by simp
          obtain ⟨ms, before, -, hms, hlinks⟩ := exists_assignmentsFrom_links column
            (c.value ++ ',' :: chainsText (d :: chains)) c.links hprev
          obtain ⟨inName, before', hvalue⟩ := exists_assignmentsFrom_unmarked
            (column + (c.links.flatMap Link.text).length) c.value_unmarked hcomma false before
          rw [chainsText_cons_cons, hlinks, hvalue, hlength,
            assignmentsFrom_cons (by decide : isWordChar ',' = false)]
          exact hms.append (ih (by decide +kernel) _)

/-! ### Lines of chains -/

/--
A line of chains: blanks, perhaps the keyword of a scope, and chains whose names are no keywords,
with a comma between each two.
-/
structure ChainLine where
  lead : List Char
  modifier : Option Modifier
  chains : List Chain
  lead_blank : ∀ c ∈ lead, isBlank c = true
  chains_ne_nil : chains ≠ []
  names_free : ∀ c ∈ chains, ∀ l ∈ c.links, isKeyword (String.ofList l.name) = false

namespace ChainLine

/-- What comes before the chains of a line. -/
def front (line : ChainLine) : List Char :=
  match line.modifier with
  | none => line.lead
  | some m => line.lead ++ (m.word ++ m.gap)

/-- The text of a line of chains. -/
def text (line : ChainLine) : List Char :=
  line.front ++ chainsText line.chains

/-- The scope of the names of a line. -/
def scope (line : ChainLine) : Scope :=
  match line.modifier with
  | none => .local
  | some m => m.scope

/-- The names of a line, with their columns. -/
def columns (line : ChainLine) : List (List Char × Nat) :=
  chainColumns line.front.length line.chains

/-- The keyword of a line declares all its names. -/
theorem exists_declaredOn? {line : ChainLine} {m : Modifier} (h : line.modifier = some m) :
    ∃ ms, declaredOn? line.text = some (m.scope, ms) ∧ InitializesAt ms line.columns := by
  obtain ⟨ms, hdeclared, hms⟩ := m.exists_declaredOn?_chains line.lead_blank line.chains_ne_nil
  have htext : line.text = line.lead ++ (m.word ++ (m.gap ++ chainsText line.chains)) := by
    simp [text, front, h]
  refine ⟨ms, by rw [htext, hdeclared], ?_⟩
  simpa [columns, front, h] using hms

/-- Without a keyword a line declares nothing, but its names are assigned to. -/
theorem initializesAt_impliedOn {line : ChainLine} (h : line.modifier = none) :
    declaredOn? line.text = none ∧ impliedOn line.text = assignedNames line.text ∧
      InitializesAt (assignedNames line.text) line.columns := by
  obtain ⟨c, hc, l, hl, rest, hchains⟩ := exists_chainsText_eq_link line.chains_ne_nil
  have htext : line.text = line.lead ++ l.lead ++
      (l.name ++ (l.gap ++ ':' :: '=' :: rest)) := by
    simp [text, front, h, hchains, l.text_append]
  have hlead : ∀ d ∈ line.lead ++ l.lead, isBlank d = true := by
    intro d hd
    exact (List.mem_append.1 hd).elim (line.lead_blank d) (l.lead_blank d)
  have hfree := line.names_free c hc l hl
  have htail := not_isWordChar_head_of_mark l.gap_blank ('=' :: rest)
  have hdeclared := declaredOn?_of_name hlead l.name_identifier hfree htail
  have hloop := loopNames_of_name hlead l.name_identifier hfree htail
  have hcaught := caughtNames_of_name hlead l.name_identifier hfree htail
  rw [← htext] at hdeclared hloop hcaught
  have hstart : admitsName none = true := rfl
  obtain ⟨before, hbefore, hwalk⟩ :=
    exists_assignmentsFrom_blanks 0 (chainsText line.chains) line.lead_blank hstart
  have hassigned : assignedNames line.text =
      assignmentsFrom false before line.lead.length (chainsText line.chains) := by
    rw [Nat.zero_add] at hwalk
    rw [← hwalk]
    simp [assignedNames, text, front, h]
  refine ⟨hdeclared, by simp [impliedOn, hloop, hcaught], ?_⟩
  rw [hassigned]
  simpa [columns, front, h] using
    initializesAt_assignmentsFrom_chains line.chains hbefore line.lead.length

/-- A line of chains mentions all its names, in its scope and with an initializer. -/
theorem exists_mentions (line : ChainLine) (number : Nat) :
    ∃ ms, mentionedVariables [⟨number, line.text⟩] =
        ms.map (BodyLine.toVariable ⟨number, line.text⟩ line.scope) ∧
      InitializesAt ms line.columns ∧ ms.Pairwise fun a b => a.column < b.column := by
  have hmentioned : mentionedVariables [⟨number, line.text⟩] =
      BodyLine.declared ⟨number, line.text⟩ ++ BodyLine.implied ⟨number, line.text⟩ := by
    simp [mentionedVariables]
  cases hmodifier : line.modifier with
  | some m =>
      obtain ⟨ms, hdeclared, hms⟩ := exists_declaredOn? hmodifier
      refine ⟨ms, ?_, hms, declaredOn?_pairwise hdeclared⟩
      rw [hmentioned]
      simp [BodyLine.declared, BodyLine.implied, hdeclared, scope, hmodifier]
  | none =>
      obtain ⟨hdeclared, himplied, hms⟩ := initializesAt_impliedOn hmodifier
      refine ⟨assignedNames line.text, ?_, hms, assignedNames_pairwise line.text⟩
      rw [hmentioned]
      simp [BodyLine.declared, BodyLine.implied, hdeclared, himplied, scope, hmodifier]

end ChainLine

end ScriptOutline
