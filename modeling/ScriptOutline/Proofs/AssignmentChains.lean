/-
**Chains of assignments, link by link.**

A chain such as `a := b := 0` is a run of links, each a name with its assignment mark and the blanks
around the name, and a value behind them.  A declaration line is cut into pieces at the commas
outside of brackets, and the names of a piece are those of the links it starts with.

Main definitions:

* `Link`, `Link.text` — a name with its assignment mark;
* `linkColumns` — the names of links that follow one another, with their columns;
* `EndsPiece` — a text is empty, or ends with a comma outside of brackets.

Main results:

* `assignedName?_link`, `exists_link` — an assigned name is that of a link;
* `chainNames_links`, `exists_links` — the names of a chain are those of its links;
* `mem_readChain_links`, `exists_links_of_mem_readChain` — only links lead to a name of a chain;
* `withColumns_append_comma` — cutting at a comma outside of brackets;
* `exists_endsPiece` — every piece starts where another one ends, and ends before a comma.
-/

import Mathlib.Algebra.GroupWithZero.Nat
import ScriptOutline.Proofs.MentionOrder
import ScriptOutline.Proofs.WordsAndBlanks

set_option relaxedAutoImplicit false
set_option autoImplicit false

namespace ScriptOutline

/-! ### Links -/

/-- A name that is assigned to, with the blanks around it. -/
structure Link where
  lead : List Char
  name : List Char
  gap : List Char
  lead_blank : ∀ c ∈ lead, isBlank c = true
  name_identifier : isIdentifier name = true
  gap_blank : ∀ c ∈ gap, isBlank c = true

namespace Link

/-- A link up to its assignment mark. -/
def text (l : Link) : List Char :=
  l.lead ++ (l.name ++ (l.gap ++ [':', '=']))

theorem text_append (l : Link) (rest : List Char) :
    l.text ++ rest = l.lead ++ (l.name ++ (l.gap ++ ':' :: '=' :: rest)) := by
  simp [text]

end Link

/-- The name of a link is assigned to, and what follows the mark is left. -/
theorem assignedName?_link (l : Link) (rest : List Char) :
    assignedName? (l.text ++ rest) = some (l.name, rest) := by
  have hread := identifier?_append_of_identifier l.name_identifier
    (not_isWordChar_head_of_mark l.gap_blank ('=' :: rest))
  rw [assignedName?, l.text_append, trimStart_blanks l.lead_blank,
    trimStart_identifier l.name_identifier, hread]
  simp only [afterAssign?_mark l.gap_blank, Option.map_some]

/-- An assigned name is that of a link. -/
theorem exists_link {cs name rest : List Char} (h : assignedName? cs = some (name, rest)) :
    ∃ l : Link, l.name = name ∧ cs = l.text ++ rest := by
  unfold assignedName? at h
  split at h
  · simp at h
  · next name' after hname =>
      obtain ⟨value, hvalue, heq⟩ := Option.map_eq_some_iff.1 h
      obtain ⟨rfl, rfl⟩ := Prod.mk.inj heq
      obtain ⟨lead, hcs, hlead⟩ := trimStart_spec cs
      obtain ⟨htrim, hidentifier, -⟩ := identifier?_spec hname
      obtain ⟨gap, hafter, hgap⟩ := afterAssign?_eq_some hvalue
      refine ⟨⟨lead, name', gap, hlead, hidentifier, hgap⟩, rfl, ?_⟩
      rw [Link.text_append, ← hafter, ← htrim, ← hcs]

/-! ### Chains -/

/-- The names of links that follow one another from a column on, with their columns. -/
def linkColumns (column : Nat) : List Link → List (List Char × Nat)
  | [] => []
  | l :: rest => (l.name, column + l.lead.length) :: linkColumns (column + l.text.length) rest

/-- A name with a column is that of one of the links, and the links before it lead up to it. -/
theorem mem_linkColumns {column k : Nat} {name : List Char} {links : List Link} :
    (name, k) ∈ linkColumns column links ↔
      ∃ before l after, links = before ++ l :: after ∧ l.name = name ∧
        k = column + (before.flatMap Link.text).length + l.lead.length := by
  induction links generalizing column with
  | nil => simp [linkColumns]
  | cons first links ih =>
      rw [linkColumns, List.mem_cons, ih]
      constructor
      · rintro (heq | ⟨before, l, after, rfl, hname, hk⟩)
        · obtain ⟨rfl, rfl⟩ := Prod.mk.inj heq
          exact ⟨[], first, links, rfl, rfl, by simp⟩
        · refine ⟨first :: before, l, after, rfl, hname, ?_⟩
          rw [List.flatMap_cons, List.length_append]
          omega
      · rintro ⟨before, l, after, heq, rfl, rfl⟩
        cases before with
        | nil =>
            obtain ⟨rfl, rfl⟩ := List.cons.inj heq
            exact Or.inl (by simp)
        | cons b before =>
            obtain ⟨rfl, rfl⟩ := List.cons.inj heq
            refine Or.inr ⟨before, l, after, rfl, rfl, ?_⟩
            rw [List.flatMap_cons, List.length_append]
            omega

/-- The first link of a chain gives its first name. -/
theorem chainNames_link (column : Nat) (l : Link) (rest : List Char) :
    chainNames column (l.text ++ rest) =
      ((l.name, column + l.lead.length) :: (chainNames (column + l.text.length) rest).1,
        (chainNames (column + l.text.length) rest).2) := by
  have htrim : trimStart (l.text ++ rest) = l.name ++ (l.gap ++ ':' :: '=' :: rest) := by
    rw [l.text_append, trimStart_blanks l.lead_blank, trimStart_identifier l.name_identifier]
  have hlead : (l.text ++ rest).length - (trimStart (l.text ++ rest)).length = l.lead.length := by
    rw [htrim, l.text_append, List.length_append, Nat.add_sub_cancel]
  have hlink : (l.text ++ rest).length - rest.length = l.text.length := by
    rw [List.length_append]
    omega
  rw [chainNames]
  split
  · next heq => simp [assignedName?_link] at heq
  · next name after heq =>
      rw [assignedName?_link, Option.some.injEq, Prod.mk.injEq] at heq
      obtain ⟨rfl, rfl⟩ := heq
      rw [hlead, hlink]

/-- The names of a chain are those of the links up to where no name is assigned to. -/
theorem chainNames_links (column : Nat) (links : List Link) {rest : List Char}
    (h : assignedName? rest = none) :
    chainNames column (links.flatMap Link.text ++ rest) = (linkColumns column links, rest) := by
  induction links generalizing column with
  | nil =>
      rw [List.flatMap_nil, List.nil_append, chainNames]
      split
      · rfl
      · next heq => simp [h] at heq
  | cons l links ih =>
      rw [List.flatMap_cons, List.append_assoc, chainNames_link, ih]
      rfl

/-- Every text is a run of links and a rest that assigns to no name. -/
theorem exists_links (cs : List Char) :
    ∃ (links : List Link) (rest : List Char),
      cs = links.flatMap Link.text ++ rest ∧ assignedName? rest = none := by
  induction hlength : cs.length using Nat.strong_induction_on generalizing cs with
  | _ n ih =>
      cases hname : assignedName? cs with
      | none => exact ⟨[], cs, rfl, hname⟩
      | some found =>
          obtain ⟨name, after⟩ := found
          have hlt := assignedName?_length hname
          obtain ⟨l, -, hcs⟩ := exists_link hname
          obtain ⟨links, rest, hafter, hrest⟩ := ih after.length (by omega) after rfl
          refine ⟨l :: links, rest, ?_, hrest⟩
          rw [hcs, hafter, List.flatMap_cons, List.append_assoc]

/-- A text that starts with a link is a chain, and its value is what follows the links. -/
theorem readChain_links (column : Nat) {links : List Link} (hne : links ≠ []) {rest : List Char}
    (h : assignedName? rest = none) :
    readChain column (links.flatMap Link.text ++ rest) =
      (linkColumns column links, some (trim rest)) := by
  obtain ⟨l, links, rfl⟩ := List.exists_cons_of_ne_nil hne
  simp only [readChain, chainNames_links column _ h, linkColumns, List.isEmpty_cons,
    Bool.false_eq_true, if_false]

/-- The names of a text that starts with links are theirs. -/
theorem mem_readChain_links (column : Nat) (links : List Link) (l : Link) (rest : List Char) :
    (l.name, column + (links.flatMap Link.text).length + l.lead.length) ∈
      (readChain column ((links ++ [l]).flatMap Link.text ++ rest)).1 := by
  obtain ⟨more, value, rfl, hvalue⟩ := exists_links rest
  rw [← List.append_assoc, ← List.flatMap_append, readChain_links column (by simp) hvalue]
  exact mem_linkColumns.2 ⟨links, l, more, by simp, rfl, rfl⟩

/-- Only links and blanks lead to a name of a chain, and only blanks to a name on its own. -/
theorem exists_links_of_mem_readChain {column k : Nat} {cs name : List Char}
    (h : (name, k) ∈ (readChain column cs).1) :
    ∃ (links : List Link) (blanks after : List Char),
      cs = links.flatMap Link.text ++ (blanks ++ after) ∧ (∀ c ∈ blanks, isBlank c = true) ∧
        k = column + (links.flatMap Link.text).length + blanks.length := by
  obtain ⟨links, value, hcs, hvalue⟩ := exists_links cs
  by_cases hlinks : links = []
  · subst hlinks
    obtain ⟨blanks, hblanks, hall⟩ := trimStart_spec cs
    refine ⟨[], blanks, trimStart cs, hblanks, hall, ?_⟩
    have hnone : chainNames column cs = ([], value) := by
      rw [hcs]
      exact chainNames_links column [] hvalue
    simp only [readChain, hnone, List.isEmpty_nil, if_true] at h
    split at h
    · have hlength := congrArg List.length hblanks
      rw [List.length_append] at hlength
      simp only [List.mem_singleton, Prod.mk.injEq] at h
      rw [h.2, List.flatMap_nil, List.length_nil]
      omega
    · simp at h
  · rw [hcs, readChain_links column hlinks hvalue] at h
    obtain ⟨before, l, after, rfl, -, hk⟩ := mem_linkColumns.1 h
    refine ⟨before, l.lead, l.name ++ (l.gap ++ ':' :: '=' ::
      (after.flatMap Link.text ++ value)), ?_, l.lead_blank, hk⟩
    rw [hcs]
    simp [Link.text]

/-! ### Pieces between commas -/

/-- A character of a class that has no comma and no bracket in it belongs to every piece. -/
theorem charStep_of_class {p : Char → Bool}
    (hp : ([',', '(', '[', '{', ')', ']', '}'].all fun d => !p d) = true) {c : Char}
    (hc : p c = true) : c ≠ ',' ∧ ∀ depth, charStep depth c = depth := by
  have hne (d : Char) (hd : d ∈ [',', '(', '[', '{', ')', ']', '}']) : c ≠ d := by
    rintro rfl
    have hnot := List.all_eq_true.1 hp c hd
    simp [hc] at hnot
  have hopener : isOpener c = false := by
    simp [isOpener, hne '(' (by simp), hne '[' (by simp), hne '{' (by simp)]
  have hcloser : isCloser c = false := by
    simp [isCloser, hne ')' (by simp), hne ']' (by simp), hne '}' (by simp)]
  exact ⟨hne ',' (by simp), fun depth => by simp [charStep, hopener, hcloser]⟩

/-- Links hold no comma and no bracket. -/
theorem charStep_of_mem_links {links : List Link} {c : Char}
    (h : c ∈ links.flatMap Link.text) : c ≠ ',' ∧ ∀ depth, charStep depth c = depth := by
  obtain ⟨l, -, hc⟩ := List.mem_flatMap.1 h
  simp only [Link.text, List.mem_append] at hc
  rcases hc with hc | hc | hc | hc
  · exact charStep_of_class (by decide) (l.lead_blank c hc)
  · exact charStep_of_class (by decide) (isWordChar_of_mem l.name_identifier hc)
  · exact charStep_of_class (by decide) (l.gap_blank c hc)
  · exact charStep_of_class (p := fun c => c = ':' || c = '=') (by decide) (by simpa using hc)

theorem piecesFrom_ne_nil (depth : Nat) (cs : List Char) : piecesFrom depth cs ≠ [] := by
  cases cs with
  | nil => simp [piecesFrom]
  | cons c rest =>
      simp only [piecesFrom]
      split
      · simp
      · split
        · simp
        · simp

/-- A character that does not end a piece comes before the first piece of what follows it. -/
theorem piecesFrom_cons {depth : Nat} {c : Char} (h : ¬(depth = 0 ∧ c = ',')) (rest : List Char) :
    ∃ piece pieces, piecesFrom (charStep depth c) rest = piece :: pieces ∧
      piecesFrom depth (c :: rest) = (c :: piece) :: pieces := by
  cases hrest : piecesFrom (charStep depth c) rest with
  | nil => exact absurd hrest (piecesFrom_ne_nil _ _)
  | cons piece pieces =>
      refine ⟨piece, pieces, rfl, ?_⟩
      simp only [piecesFrom, hrest, Bool.and_eq_true, decide_eq_true_eq, h, if_false]

theorem piecesFrom_comma (rest : List Char) :
    piecesFrom 0 (',' :: rest) = [] :: piecesFrom 0 rest := by
  simp [piecesFrom]

/-- A text is cut at a comma to which no bracket is open. -/
theorem piecesFrom_append_comma {depth : Nat} {xs : List Char}
    (h : xs.foldl charStep depth = 0) (ys : List Char) :
    piecesFrom depth (xs ++ ',' :: ys) = piecesFrom depth xs ++ piecesFrom 0 ys := by
  induction xs generalizing depth with
  | nil =>
      obtain rfl : depth = 0 := h
      exact piecesFrom_comma ys
  | cons c xs ih =>
      by_cases hcomma : depth = 0 ∧ c = ','
      · obtain ⟨rfl, rfl⟩ := hcomma
        have hxs : xs.foldl charStep 0 = 0 := h
        rw [List.cons_append, piecesFrom_comma, piecesFrom_comma, ih hxs]
        rfl
      · obtain ⟨piece, pieces, hrest, hcons⟩ := piecesFrom_cons hcomma (xs ++ ',' :: ys)
        obtain ⟨piece', pieces', hrest', hcons'⟩ := piecesFrom_cons hcomma xs
        rw [ih h, hrest', List.cons_append, List.cons.injEq] at hrest
        rw [List.cons_append, hcons, hcons', ← hrest.1, ← hrest.2]
        rfl

/-- A text without commas and brackets stands at the start of the first piece. -/
theorem piecesFrom_append_plain {xs : List Char}
    (h : ∀ c ∈ xs, c ≠ ',' ∧ ∀ depth, charStep depth c = depth) {depth : Nat} {ys piece : List Char}
    {pieces : List (List Char)} (hys : piecesFrom depth ys = piece :: pieces) :
    piecesFrom depth (xs ++ ys) = (xs ++ piece) :: pieces := by
  induction xs with
  | nil => exact hys
  | cons c xs ih =>
      obtain ⟨⟨hc, hstep⟩, hxs⟩ := List.forall_mem_cons.1 h
      have hcomma : ¬(depth = 0 ∧ c = ',') := fun hand => hc hand.2
      obtain ⟨piece', pieces', hrest, hcons⟩ := piecesFrom_cons hcomma (xs ++ ys)
      rw [hstep, ih hxs, List.cons.injEq] at hrest
      rw [List.cons_append, hcons, ← hrest.1, ← hrest.2]
      rfl

/-- The columns of pieces go on behind those of the pieces before them. -/
theorem withColumns_append (column : Nat) (xs ys : List (List Char)) :
    withColumns column (xs ++ ys) =
      withColumns column xs ++ withColumns (column + (xs.map fun x => x.length + 1).sum) ys := by
  induction xs generalizing column with
  | nil => rfl
  | cons x xs ih =>
      rw [List.cons_append, withColumns, withColumns, ih, List.map_cons, List.sum_cons,
        List.cons_append, ← Nat.add_assoc, ← Nat.add_assoc]

/-- Pieces and the commas behind them are as long as the text and one comma. -/
theorem sum_piecesFrom (depth : Nat) (cs : List Char) :
    ((piecesFrom depth cs).map fun piece => piece.length + 1).sum = cs.length + 1 := by
  induction cs generalizing depth with
  | nil => rfl
  | cons c rest ih =>
      by_cases hcomma : depth = 0 ∧ c = ','
      · obtain ⟨rfl, rfl⟩ := hcomma
        rw [piecesFrom_comma, List.map_cons, List.sum_cons, ih, List.length_cons, List.length_nil]
        omega
      · obtain ⟨piece, pieces, hrest, hcons⟩ := piecesFrom_cons hcomma rest
        have hsum := ih (charStep depth c)
        rw [hrest, List.map_cons, List.sum_cons] at hsum
        rw [hcons, List.map_cons, List.sum_cons, List.length_cons, List.length_cons]
        omega

/-- The pieces behind a comma to which no bracket is open are those of the text behind it. -/
theorem withColumns_append_comma {depth : Nat} {xs : List Char}
    (h : xs.foldl charStep depth = 0) (column : Nat) (ys : List Char) :
    withColumns column (piecesFrom depth (xs ++ ',' :: ys)) =
      withColumns column (piecesFrom depth xs) ++
        withColumns (column + (xs.length + 1)) (piecesFrom 0 ys) := by
  rw [piecesFrom_append_comma h, withColumns_append, sum_piecesFrom]

/-- No bracket is open to the end of a text, and the text is empty or ends with a comma. -/
def EndsPiece (depth : Nat) (cs : List Char) : Prop :=
  cs = [] ∨ ∃ inner, cs = inner ++ [','] ∧ inner.foldl charStep depth = 0

/-- Every piece starts where another one ends, and ends with the text or before a comma. -/
theorem exists_endsPiece {depth column k : Nat} {cs piece : List Char}
    (h : (k, piece) ∈ withColumns column (piecesFrom depth cs)) :
    ∃ left after, cs = left ++ (piece ++ after) ∧ k = column + left.length ∧
      EndsPiece depth left ∧ ∀ c ∈ after.head?, c = ',' := by
  induction cs generalizing depth column k piece with
  | nil =>
      simp only [piecesFrom, withColumns, List.mem_singleton, Prod.mk.injEq] at h
      obtain ⟨rfl, rfl⟩ := h
      exact ⟨[], [], rfl, rfl, Or.inl rfl, by simp⟩
  | cons c rest ih =>
      by_cases hcomma : depth = 0 ∧ c = ','
      · obtain ⟨rfl, rfl⟩ := hcomma
        rw [piecesFrom_comma, withColumns, List.mem_cons] at h
        rcases h with heq | h
        · obtain ⟨rfl, rfl⟩ := Prod.mk.inj heq
          exact ⟨[], ',' :: rest, rfl, rfl, Or.inl rfl, by simp⟩
        · obtain ⟨left, after, rfl, hk, hleft, hafter⟩ := ih h
          refine ⟨',' :: left, after, rfl, ?_, Or.inr ?_, hafter⟩
          · rw [hk, List.length_nil, List.length_cons]
            omega
          · rcases hleft with rfl | ⟨inner, rfl, hinner⟩
            · exact ⟨[], rfl, rfl⟩
            · exact ⟨',' :: inner, rfl, hinner⟩
      · obtain ⟨first, pieces, hrest, hcons⟩ := piecesFrom_cons hcomma rest
        have hfirst := @ih (charStep depth c) (column + 1)
        rw [hrest, withColumns] at hfirst
        rw [hcons, withColumns, List.mem_cons] at h
        rcases h with heq | h
        · -- the first piece starts where the text does, one character before what follows
          obtain ⟨rfl, rfl⟩ := Prod.mk.inj heq
          obtain ⟨left, after, hsplit, hk, -, hafter⟩ := hfirst List.mem_cons_self
          obtain rfl : left = [] := List.eq_nil_of_length_eq_zero (by omega)
          exact ⟨[], after, by rw [hsplit]; rfl, rfl, Or.inl rfl, hafter⟩
        · have hcolumn : column + (c :: first).length + 1 = column + 1 + first.length + 1 := by
            rw [List.length_cons]
            omega
          rw [hcolumn] at h
          obtain ⟨left, after, hsplit, hk, hleft, hafter⟩ := hfirst (List.mem_cons_of_mem _ h)
          refine ⟨c :: left, after, by rw [hsplit]; rfl, ?_, Or.inr ?_, hafter⟩
          · rw [hk, List.length_cons]
            omega
          · rcases hleft with rfl | ⟨inner, rfl, hinner⟩
            · -- a later piece starts behind the first one
              have hle := le_of_mem_withColumns h
              rw [hk, List.length_nil] at hle
              omega
            · exact ⟨c :: inner, rfl, hinner⟩

end ScriptOutline
