/-
**The hint of a bracketed value.**

An initializer that is one list, one object or one call of a built-in class has the hint of that
kind.  A list or an object that something follows, such as an index, has none.  A call that
something follows keeps the hint of its class, though, if the text ends with another closing
parenthesis: of the call only its first and the last parenthesis of the text are looked at, which
need not go together.  Initializers are cut out of single lines, so that a line break between the
two parentheses does not come up.

Main definitions:

* `IsNestedText` — the brackets of a text are nested, kind by kind;
* `OpensValue`, `CoversValue` — a text that is one bracketed value from its first character to its
  last;
* `GoesOnBehindCall` — a call of a built-in class that something follows, up to a parenthesis;
* `callOfElement`, `memberCall` — a text of each kind.

Main results:

* `IsNestedText.exists_split` — an opening bracket has its other end further on;
* `bracketEndsText_nested` — a count of the brackets of one kind passes over nested ones;
* `afterWord?_eq_some_iff` — names are compared up to their capitals;
* `isEnclosed_iff`, `isCallOf_iff` — what the two tests accept;
* `bracketHint_iff` — **which texts have the hint of a bracketed value**;
* `memberCall_keeps_hint` — a text that has one without being one.
-/

import ScriptOutline.Proofs.ArrowBodies
import ScriptOutline.Proofs.InitializerHints
import ScriptOutline.Proofs.NumeralShapes

set_option relaxedAutoImplicit false
set_option autoImplicit false

namespace ScriptOutline

/-! ### Nested texts -/

/-- A character of the code, at no place in particular. -/
def codeSpot (c : Char) : Spot :=
  ⟨⟨0, 0⟩, ⟨c, .code⟩⟩

/-- The brackets of a text are nested, kind by kind. -/
def IsNestedText (cs : List Char) : Prop :=
  closesAll [] (cs.map codeSpot) = true

instance (cs : List Char) : Decidable (IsNestedText cs) :=
  inferInstanceAs (Decidable (closesAll [] (cs.map codeSpot) = true))

@[simp] theorem codeSpot_isOpener (c : Char) : (codeSpot c).cell.isOpener = isOpener c := rfl

@[simp] theorem codeSpot_isCloser (c : Char) : (codeSpot c).cell.isCloser = isCloser c := rfl

theorem isNestedText_iff {cs : List Char} : IsNestedText cs ↔ Nested (cs.map codeSpot) := by
  refine ⟨nested_of_closesAll, ?_⟩
  intro h
  rw [IsNestedText, ← List.append_nil (cs.map codeSpot), closesAll_of_nested h]
  rfl

/-- A character of a class without brackets is none. -/
theorem not_bracket_of_class {p : Char → Bool}
    (hp : (['(', '[', '{', ')', ']', '}'].all fun d => !p d) = true) {c : Char} (hc : p c = true) :
    isOpener c = false ∧ isCloser c = false := by
  have hne (d : Char) (hd : d ∈ ['(', '[', '{', ')', ']', '}']) : c ≠ d := by
    rintro rfl
    have hnot := List.all_eq_true.1 hp c hd
    simp [hc] at hnot
  exact ⟨by simp [isOpener, hne '(' (by simp), hne '[' (by simp), hne '{' (by simp)],
    by simp [isCloser, hne ')' (by simp), hne ']' (by simp), hne '}' (by simp)]⟩

/-- Characters that are no brackets leave what is pending. -/
theorem closesAll_plain {plain : List Char}
    (h : ∀ c ∈ plain, isOpener c = false ∧ isCloser c = false) (pending : List Char)
    (ys : List Spot) : closesAll pending (plain.map codeSpot ++ ys) = closesAll pending ys := by
  refine closesAll_of_nested ?_ pending ys
  induction plain with
  | nil => exact Nested.nil
  | cons c plain ih =>
      obtain ⟨hopener, hcloser⟩ := h c List.mem_cons_self
      refine Nested.cons ?_ (ih fun d hd => h d (List.mem_cons_of_mem c hd))
      simp [Cell.isBracket, hopener, hcloser]

theorem closesAll_append_plain {plain : List Char}
    (h : ∀ c ∈ plain, isOpener c = false ∧ isCloser c = false) (pending : List Char)
    (xs : List Spot) : closesAll pending (xs ++ plain.map codeSpot) = closesAll pending xs := by
  induction xs generalizing pending with
  | nil =>
      have hplain := closesAll_plain h pending []
      rwa [List.append_nil] at hplain
  | cons x xs ih => simp only [List.cons_append, closesAll, ih]

/-- A text is what is left without its trailing blanks, and these. -/
theorem trimEnd_spec (cs : List Char) :
    ∃ blanks, cs = trimEnd cs ++ blanks ∧ ∀ c ∈ blanks, isBlank c = true :=
  ⟨cs.rtakeWhile isBlank, List.rdropWhile_append_rtakeWhile.symm,
    fun _ => List.mem_rtakeWhile_imp⟩

namespace IsNestedText

/-- Characters that are no brackets can be left out at the start. -/
theorem append_left_iff {plain cs : List Char}
    (h : ∀ c ∈ plain, isOpener c = false ∧ isCloser c = false) :
    IsNestedText (plain ++ cs) ↔ IsNestedText cs := by
  rw [IsNestedText, List.map_append, closesAll_plain h]
  exact Iff.rfl

/-- Characters that are no brackets can be left out at the end. -/
theorem append_right_iff {plain cs : List Char}
    (h : ∀ c ∈ plain, isOpener c = false ∧ isCloser c = false) :
    IsNestedText (cs ++ plain) ↔ IsNestedText cs := by
  rw [IsNestedText, List.map_append, closesAll_append_plain h]
  exact Iff.rfl

/-- The blanks in front of a nested text can be left out. -/
theorem trimStart {cs : List Char} (h : IsNestedText cs) :
    IsNestedText (ScriptOutline.trimStart cs) := by
  obtain ⟨lead, hlead, hblank⟩ := trimStart_spec cs
  rwa [hlead, append_left_iff fun c hc => not_bracket_of_class (by decide) (hblank c hc)] at h

/-- The blanks around a nested text can be left out. -/
theorem trim {cs : List Char} (h : IsNestedText cs) : IsNestedText (ScriptOutline.trim cs) := by
  obtain ⟨tail, htail, hblank⟩ := trimEnd_spec (ScriptOutline.trimStart cs)
  have hstart := h.trimStart
  rwa [htail, append_right_iff fun c hc => not_bracket_of_class (by decide) (hblank c hc)]
    at hstart

/-- An opening bracket has its other end further on, with nested texts between and behind them. -/
theorem exists_split {opener : Char} {rest : List Char} (hopener : isOpener opener = true)
    (h : IsNestedText (opener :: rest)) :
    ∃ inner closer after, rest = inner ++ closer :: after ∧ closes opener closer = true ∧
      IsNestedText inner ∧ IsNestedText after := by
  have hnested := isNestedText_iff.1 h
  rw [List.map_cons] at hnested
  generalize hspots : codeSpot opener :: rest.map codeSpot = xs at hnested
  cases hnested with
  | nil => simp at hspots
  | cons hx _ =>
      obtain ⟨rfl, -⟩ := List.cons.inj hspots
      simp [Cell.isBracket, hopener] at hx
  | pair _ _ hkind hinner hrest =>
      obtain ⟨rfl, htail⟩ := List.cons.inj hspots
      obtain ⟨inner, ends, rfl, rfl, hends⟩ := List.map_eq_append_iff.1 htail
      obtain ⟨closer, after, rfl, rfl, rfl⟩ := List.map_eq_cons_iff.1 hends
      exact ⟨inner, closer, after, rfl, hkind, isNestedText_iff.2 hinner,
        isNestedText_iff.2 hrest⟩

/-- A closing bracket behind a nested text is not part of a longer one. -/
theorem not_append_closer {inner : List Char} (h : IsNestedText inner) {closer : Char}
    (hcloser : isCloser closer = true) (rest : List Char) :
    ¬IsNestedText (inner ++ closer :: rest) := by
  have hopener : isOpener closer = false :=
    Cell.isOpener_of_isCloser (c := ⟨closer, .code⟩) hcloser
  rw [IsNestedText, List.map_append, closesAll_of_nested (isNestedText_iff.1 h), List.map_cons,
    closesAll, codeSpot_isOpener, codeSpot_isCloser, hopener, hcloser]
  exact Bool.false_ne_true

/-- Of a nested text and a closing bracket behind it the end can be told. -/
theorem append_closer_inj {inner inner' after after' : List Char} {closer : Char}
    (hcloser : isCloser closer = true) (h : IsNestedText inner) (h' : IsNestedText inner')
    (heq : inner ++ closer :: after = inner' ++ closer :: after') :
    inner = inner' ∧ after = after' := by
  rcases List.append_eq_append_iff.1 heq with ⟨w, rfl, hw⟩ | ⟨w, rfl, hw⟩
  · cases w with
    | nil => exact ⟨(List.append_nil _).symm, (List.cons.inj hw).2⟩
    | cons c w =>
        obtain ⟨rfl, -⟩ := List.cons.inj hw
        exact absurd h' (h.not_append_closer hcloser w)
  · cases w with
    | nil => exact ⟨List.append_nil _, (List.cons.inj hw).2.symm⟩
    | cons c w =>
        obtain ⟨rfl, -⟩ := List.cons.inj hw
        exact absurd h (h'.not_append_closer hcloser w)

end IsNestedText

/-- The two ends of one kind are told by either of them. -/
theorem closes_eq {o c o' c' : Char} (h : closes o c = true) (h' : closes o' c' = true) :
    (o' = o ↔ c' = c) ∧ o' ≠ c ∧ c' ≠ o := by
  simp only [closes, Bool.or_eq_true, Bool.and_eq_true, decide_eq_true_eq] at h h'
  rcases h with (⟨rfl, rfl⟩ | ⟨rfl, rfl⟩) | ⟨rfl, rfl⟩ <;>
    rcases h' with (⟨rfl, rfl⟩ | ⟨rfl, rfl⟩) | ⟨rfl, rfl⟩ <;> decide

/-- A count of the brackets of one kind passes over a nested run. -/
theorem bracketEndsText_of_nested {opener closer : Char} (hkind : closes opener closer = true)
    {xs : List Spot} (h : Nested xs) (hcode : ∀ x ∈ xs, x.cell.isCode = true) (depth : Nat)
    (ys : List Char) :
    bracketEndsText opener closer (depth + 1) (xs.map (·.cell.char) ++ ys) =
      bracketEndsText opener closer (depth + 1) ys := by
  induction h generalizing depth ys with
  | nil => rfl
  | @cons x rest hx _ ih =>
      have hne : x.cell.char ≠ opener ∧ x.cell.char ≠ closer := by
        obtain ⟨hopener, hcloser⟩ := Source.isBracket_of_closes hkind
        simp only [Cell.isBracket, Cell.isOpener, Cell.isCloser, hcode x List.mem_cons_self,
          Bool.true_and, Bool.or_eq_false_iff] at hx
        constructor
        · rintro rfl
          exact Bool.false_ne_true (hx.1.symm.trans hopener)
        · rintro rfl
          exact Bool.false_ne_true (hx.2.symm.trans hcloser)
      rw [List.map_cons, List.cons_append, bracketEndsText, if_neg hne.1, if_neg hne.2]
      exact ih (fun y hy => hcode y (List.mem_cons_of_mem x hy)) depth ys
  | @pair o c inner rest ho hc hkind' _ _ ihinner ihrest =>
      have hinner := ihinner fun y hy => hcode y (by simp [hy])
      have hrest := ihrest (fun y hy => hcode y (by simp [hy])) depth ys
      obtain ⟨hsame, hopener, hcloser⟩ := closes_eq hkind hkind'
      have hends : opener ≠ closer := (closes_eq hkind hkind).2.1
      simp only [List.map_cons, List.map_append, List.cons_append, List.append_assoc,
        bracketEndsText]
      by_cases heq : o.cell.char = opener
      · -- a pair of the same kind is one deeper
        rw [if_pos heq, hinner, bracketEndsText, hsame.1 heq, if_neg hends.symm, if_pos rfl,
          if_neg (by omega)]
        exact hrest
      · rw [if_neg heq, if_neg hopener, hinner, bracketEndsText, if_neg hcloser,
          if_neg fun h => heq (hsame.2 h)]
        exact hrest

/-- A count of the brackets of one kind passes over a nested text. -/
theorem bracketEndsText_nested {opener closer : Char} (hkind : closes opener closer = true)
    {inner : List Char} (h : IsNestedText inner) (depth : Nat) (ys : List Char) :
    bracketEndsText opener closer (depth + 1) (inner ++ ys) =
      bracketEndsText opener closer (depth + 1) ys := by
  have hcode : ∀ x ∈ inner.map codeSpot, x.cell.isCode = true := by
    intro x hx
    obtain ⟨c, -, rfl⟩ := List.mem_map.1 hx
    rfl
  have hpass := bracketEndsText_of_nested hkind (isNestedText_iff.1 h) hcode depth ys
  rwa [List.map_map, show inner.map ((·.cell.char) ∘ codeSpot) = inner from List.map_id _] at hpass

/-- A bracket with a nested text behind it ends the text just if nothing follows its other end. -/
theorem bracketEndsText_closed {opener closer : Char} (hkind : closes opener closer = true)
    {inner : List Char} (h : IsNestedText inner) (after : List Char) :
    bracketEndsText opener closer 1 (inner ++ closer :: after) = after.isEmpty := by
  have hends : closer ≠ opener := (closes_eq hkind hkind).2.1.symm
  rw [bracketEndsText_nested hkind h, bracketEndsText, if_neg hends, if_pos rfl,
    if_pos (Nat.le_refl _)]

/-- What starts with a bracket is enclosed by it just if its other end is the last character. -/
theorem isEnclosed_iff {opener closer : Char} (hkind : closes opener closer = true)
    {cs : List Char} (h : IsNestedText cs) :
    isEnclosed opener closer cs = true ↔
      ∃ inner, IsNestedText inner ∧ cs = opener :: (inner ++ [closer]) := by
  constructor
  · intro henclosed
    cases cs with
    | nil => exact absurd henclosed Bool.false_ne_true
    | cons c rest =>
        simp only [isEnclosed, Bool.and_eq_true, decide_eq_true_eq] at henclosed
        obtain ⟨rfl, hend⟩ := henclosed
        obtain ⟨inner, closer', after, rfl, hkind', hinner, -⟩ :=
          h.exists_split (Source.isBracket_of_closes hkind).1
        obtain rfl := (closes_eq hkind hkind').1.1 rfl
        rw [bracketEndsText_closed hkind hinner, List.isEmpty_iff] at hend
        exact ⟨inner, hinner, by rw [hend]⟩
  · rintro ⟨inner, hinner, rfl⟩
    simp [isEnclosed, bracketEndsText_closed hkind hinner]

/-! ### Calls of built-in classes -/

/-- A name without the letters of the long s and the Kelvin sign is compared up to its capitals. -/
theorem afterWord?_eq_some_iff {name cs rest : List Char}
    (hname : ∀ c ∈ name, c ≠ 's' ∧ c ≠ 'k') :
    afterWord? name cs = some rest ↔
      ∃ word, asciiLowercaseChars word = name ∧ cs = word ++ rest := by
  induction name generalizing cs with
  | nil => simp [afterWord?, asciiLowercaseChars]
  | cons letter name ih =>
      obtain ⟨hs, hk⟩ := hname letter List.mem_cons_self
      cases cs with
      | nil => simp [afterWord?, asciiLowercaseChars]
      | cons c cs =>
          have hfolds : foldsTo letter c = true ↔ c.toLower = letter := by simp [foldsTo, hs, hk]
          simp only [afterWord?, hfolds]
          have ih := @ih cs fun d hd => hname d (List.mem_cons_of_mem letter hd)
          constructor
          · intro h
            split at h
            · next hc =>
                obtain ⟨word, hword, rfl⟩ := ih.1 h
                exact ⟨c :: word, by simp [asciiLowercaseChars, hc, ← hword], rfl⟩
            · simp at h
          · rintro ⟨word, hword, hcs⟩
            obtain ⟨d, tail, rfl, hd, htail⟩ := List.map_eq_cons_iff.1 hword
            obtain ⟨rfl, rfl⟩ := List.cons.inj hcs
            rw [if_pos hd]
            exact ih.2 ⟨tail, htail, rfl⟩

/-- A text is a name, up to its capitals, with one pair of parentheses and what follows these. -/
def IsCallOn (name cs after : List Char) : Prop :=
  ∃ word inner, asciiLowercaseChars word = name ∧ IsNestedText inner ∧
    cs = word ++ '(' :: (inner ++ ')' :: after)

section

variable {name : List Char} {hint : Hint} (hname : (name, hint) ∈ builtInClasses)

include hname

/-- The names of the built-in classes are compared up to their capitals. -/
theorem class_name_spec :
    name ≠ [] ∧ name.all Char.isAlpha = true ∧ ∀ c ∈ name, c ≠ 's' ∧ c ≠ 'k' := by
  have hall : ∀ named ∈ builtInClasses, named.1 ≠ [] ∧ named.1.all Char.isAlpha = true ∧
      (named.1.all fun c => c ≠ 's' && c ≠ 'k') = true := by
    decide
  obtain ⟨hne, halpha, hletters⟩ := hall _ hname
  exact ⟨hne, halpha, fun c hc => by simpa using List.all_eq_true.1 hletters c hc⟩

theorem not_bracket_of_class_name {word : List Char} (hword : asciiLowercaseChars word = name) :
    ∀ c ∈ word, isOpener c = false ∧ isCloser c = false := by
  intro c hc
  exact not_bracket_of_class (by decide)
    (isAlpha_of_asciiLowercaseChars (class_name_spec hname).2.1 hword hc)

/-- What is compared with the name of a class starts with its first letter. -/
theorem exists_cons_of_class_name {word : List Char} (hword : asciiLowercaseChars word = name) :
    ∃ c rest, word = c :: rest ∧ c.isAlpha = true ∧ name.head? = some c.toLower := by
  obtain ⟨hne, halpha, -⟩ := class_name_spec hname
  subst hword
  cases word with
  | nil => exact absurd rfl hne
  | cons c rest =>
      exact ⟨c, rest, rfl, isAlpha_of_asciiLowercaseChars halpha rfl List.mem_cons_self, rfl⟩

/-- Behind the name of a class its call goes on with the parenthesis. -/
theorem IsCallOn.afterWord?_eq {cs after : List Char} (h : IsCallOn name cs after) :
    ∃ inner, IsNestedText inner ∧ afterWord? name cs = some ('(' :: (inner ++ ')' :: after)) := by
  obtain ⟨word, inner, hword, hinner, rfl⟩ := h
  exact ⟨inner, hinner,
    (afterWord?_eq_some_iff (class_name_spec hname).2.2).2 ⟨word, hword, rfl⟩⟩

/-- There is one end of a call. -/
theorem IsCallOn.after_unique {cs after after' : List Char} (h : IsCallOn name cs after)
    (h' : IsCallOn name cs after') : after = after' := by
  obtain ⟨inner, hinner, hrest⟩ := h.afterWord?_eq hname
  obtain ⟨inner', hinner', hrest'⟩ := h'.afterWord?_eq hname
  rw [hrest, Option.some.injEq, List.cons.injEq] at hrest'
  exact (hinner.append_closer_inj rfl hinner' hrest'.2).2

/-- The text of a call ends with the other end of its parenthesis, or with another one. -/
theorem isCallOf_iff {cs : List Char} (h : IsNestedText cs) :
    isCallOf name cs = true ↔
      ∃ after, IsCallOn name cs after ∧ (after = [] ∨ after.getLast? = some ')') := by
  have hlast (inner after : List Char) : (inner ++ ')' :: after).getLast? = some ')' ↔
      after = [] ∨ after.getLast? = some ')' := by
    cases after with
    | nil => simp
    | cons c after => simp [List.getLast?_cons]
  unfold isCallOf
  constructor
  · intro hcall
    split at hcall
    · next rest hafter =>
        obtain ⟨word, hword, rfl⟩ := (afterWord?_eq_some_iff (class_name_spec hname).2.2).1 hafter
        rw [IsNestedText.append_left_iff (not_bracket_of_class_name hname hword)] at h
        obtain ⟨inner, closer, after, rfl, hkind, hinner, -⟩ := h.exists_split rfl
        obtain rfl : closer = ')' := (closes_eq (o := '(') (c := ')') rfl hkind).1.1 rfl
        refine ⟨after, ⟨word, inner, hword, hinner, rfl⟩, (hlast inner after).1 ?_⟩
        simpa using hcall
    · exact absurd hcall Bool.false_ne_true
  · rintro ⟨after, hcall, hend⟩
    obtain ⟨inner, -, hrest⟩ := hcall.afterWord?_eq hname
    rw [hrest]
    simpa using (hlast inner after).2 hend

end

/-! ### Bracketed values -/

/-- The hints that brackets give. -/
def bracketHints : List Hint :=
  [.array, .object, .map, .buffer]

/-- How a bracketed value with a hint starts, and the bracket that closes it. -/
inductive OpensValue : Hint → List Char → Char → Prop where
  | list : OpensValue .array ['['] ']'
  | object : OpensValue .object ['{'] '}'
  | call {name word : List Char} {hint : Hint} (hname : (name, hint) ∈ builtInClasses)
      (hword : asciiLowercaseChars word = name) : OpensValue hint (word ++ ['(']) ')'

/-- A text is one bracketed value, from its first character to its last. -/
def CoversValue (hint : Hint) (cs : List Char) : Prop :=
  ∃ start closer inner, OpensValue hint start closer ∧ IsNestedText inner ∧
    cs = start ++ (inner ++ [closer])

/-- A text is a call of a built-in class, with something behind it that ends in a parenthesis. -/
def GoesOnBehindCall (hint : Hint) (cs : List Char) : Prop :=
  ∃ name after, (name, hint) ∈ builtInClasses ∧ IsCallOn name cs after ∧
    after.getLast? = some ')'

theorem coversValue_iff {hint : Hint} {cs : List Char} : CoversValue hint cs ↔
    (hint = .array ∧ ∃ inner, IsNestedText inner ∧ cs = '[' :: (inner ++ [']'])) ∨
      (hint = .object ∧ ∃ inner, IsNestedText inner ∧ cs = '{' :: (inner ++ ['}'])) ∨
        ∃ name, (name, hint) ∈ builtInClasses ∧ IsCallOn name cs [] := by
  constructor
  · rintro ⟨start, closer, inner, hopens, hinner, rfl⟩
    cases hopens with
    | list => exact Or.inl ⟨rfl, inner, hinner, rfl⟩
    | object => exact Or.inr (Or.inl ⟨rfl, inner, hinner, rfl⟩)
    | call hname hword =>
        exact Or.inr (Or.inr ⟨_, hname, _, inner, hword, hinner, by simp⟩)
  · rintro (⟨rfl, inner, hinner, rfl⟩ | ⟨rfl, inner, hinner, rfl⟩ |
      ⟨name, hname, word, inner, hword, hinner, rfl⟩)
    · exact ⟨_, _, inner, .list, hinner, rfl⟩
    · exact ⟨_, _, inner, .object, hinner, rfl⟩
    · exact ⟨_, _, inner, .call hname hword, hinner, by simp⟩

/-- What is one bracketed value has nothing behind it. -/
theorem CoversValue.not_goesOnBehindCall {hint : Hint} {cs : List Char} (h : CoversValue hint cs) :
    ¬GoesOnBehindCall hint cs := by
  rintro ⟨name, after, hname, hon, hend⟩
  have hletter : ∃ c rest, cs = c :: rest ∧ c.isAlpha = true := by
    obtain ⟨word, inner, hword, -, rfl⟩ := hon
    obtain ⟨c, tail, rfl, halpha, -⟩ := exists_cons_of_class_name hname hword
    exact ⟨c, _, rfl, halpha⟩
  obtain ⟨c, rest, rfl, halpha⟩ := hletter
  rcases coversValue_iff.1 h with ⟨-, inner, -, hcs⟩ | ⟨-, inner, -, hcs⟩ | ⟨name', hname', hon'⟩
  · rw [(List.cons.inj hcs).1] at halpha
    exact absurd halpha (by decide)
  · rw [(List.cons.inj hcs).1] at halpha
    exact absurd halpha (by decide)
  · -- A hint is that of one class, so that the two calls have one end.
    have hone : ∀ named ∈ builtInClasses, ∀ named' ∈ builtInClasses,
        named.2 = named'.2 → named.1 = named'.1 := by
      decide
    obtain rfl := hone _ hname _ hname' rfl
    rw [hon.after_unique hname hon'] at hend
    exact absurd hend (by simp)

/-- A text that starts with a letter is no numeral, no literal, no list and no object. -/
theorem Hint.ofText?_of_letter {cs : List Char} {c : Char} {rest : List Char}
    (htrim : trim cs = c :: rest) (hc : c.isAlpha = true) :
    Hint.ofText? cs =
      (builtInClasses.find? fun named => isCallOf named.1 (c :: rest)).map Prod.snd := by
  have hdigit : isDecimalDigit c = false := by
    have hletter := forall_of_isAlpha (p := fun c => !isDecimalDigit c) (by decide +kernel) hc
    simpa using hletter
  have hmark : c ∉ ['+', '-', '.', '"', '\'', '[', '{'] := by
    have hletter := forall_of_isAlpha
      (p := fun c => !(['+', '-', '.', '"', '\'', '[', '{'].contains c)) (by decide +kernel) hc
    simpa using hletter
  simp only [List.mem_cons, List.not_mem_nil, or_false, not_or] at hmark
  obtain ⟨hinteger, hfloat⟩ := not_numeral_of_head hdigit (by simp [hmark]) rest
  unfold Hint.ofText?
  simp [htrim, hinteger, hfloat, isBetween, isEnclosed, Quote.char, hmark]

/-- The first letters of the built-in classes tell them apart. -/
theorem builtInClasses_head : ∀ named ∈ builtInClasses, ∀ named' ∈ builtInClasses,
    named.1.head? = named'.1.head? → named = named' := by
  decide

/-- What is a call of a class starts with its first letter. -/
theorem exists_cons_of_isCallOf {name cs : List Char} {hint : Hint}
    (hname : (name, hint) ∈ builtInClasses) (h : isCallOf name cs = true) :
    ∃ c rest, cs = c :: rest ∧ c.isAlpha = true ∧ name.head? = some c.toLower := by
  unfold isCallOf at h
  split at h
  · next rest hafter =>
      obtain ⟨word, hword, rfl⟩ :=
        (afterWord?_eq_some_iff (class_name_spec hname).2.2).1 hafter
      obtain ⟨c, tail, rfl, halpha, hhead⟩ := exists_cons_of_class_name hname hword
      exact ⟨c, _, rfl, halpha, hhead⟩
  · exact absurd h Bool.false_ne_true

theorem exists_cons_of_isEnclosed {opener closer : Char} {cs : List Char}
    (h : isEnclosed opener closer cs = true) : ∃ rest, cs = opener :: rest := by
  cases cs with
  | nil => exact absurd h Bool.false_ne_true
  | cons c rest =>
      simp only [isEnclosed, Bool.and_eq_true, decide_eq_true_eq] at h
      exact ⟨rest, by rw [h.1]⟩

/-- The hints of brackets are given by the two tests for brackets. -/
theorem Hint.ofText?_eq_some_iff {cs : List Char} {hint : Hint} (hhint : hint ∈ bracketHints) :
    Hint.ofText? cs = some hint ↔
      (hint = .array ∧ isEnclosed '[' ']' (trim cs) = true) ∨
        (hint = .object ∧ isEnclosed '{' '}' (trim cs) = true) ∨
          ∃ name, (name, hint) ∈ builtInClasses ∧ isCallOf name (trim cs) = true := by
  constructor
  · intro h
    unfold Hint.ofText? at h
    simp only at h
    split at h
    · obtain rfl := Option.some.inj h
      exact absurd hhint (by decide)
    · split at h
      · obtain rfl := Option.some.inj h
        exact absurd hhint (by decide)
      · split at h
        · obtain rfl := Option.some.inj h
          exact absurd hhint (by decide)
        · split at h
          · next hlist => exact Or.inl ⟨(Option.some.inj h).symm, hlist⟩
          · split at h
            · next hobject => exact Or.inr (Or.inl ⟨(Option.some.inj h).symm, hobject⟩)
            · obtain ⟨named, hfind, rfl⟩ := Option.map_eq_some_iff.1 h
              have hcall := List.find?_some hfind
              exact Or.inr (Or.inr ⟨named.1, List.mem_of_find?_eq_some hfind, hcall⟩)
  · rintro (⟨rfl, hlist⟩ | ⟨rfl, hobject⟩ | ⟨name, hname, hcall⟩)
    · obtain ⟨rest, hcs⟩ := exists_cons_of_isEnclosed hlist
      obtain ⟨hinteger, hfloat⟩ :=
        not_numeral_of_head (c := '[') (by decide +kernel) (by decide) rest
      rw [hcs] at hlist
      simp [Hint.ofText?, hcs, hinteger, hfloat, isBetween, Quote.char, hlist]
    · obtain ⟨rest, hcs⟩ := exists_cons_of_isEnclosed hobject
      obtain ⟨hinteger, hfloat⟩ :=
        not_numeral_of_head (c := '{') (by decide +kernel) (by decide) rest
      have hlist : isEnclosed '[' ']' ('{' :: rest) = false := rfl
      rw [hcs] at hobject
      simp [Hint.ofText?, hcs, hinteger, hfloat, isBetween, Quote.char, hlist, hobject]
    · obtain ⟨c, rest, hcs, halpha, hhead⟩ := exists_cons_of_isCallOf hname hcall
      rw [Hint.ofText?_of_letter hcs halpha, ← hcs]
      cases hfind : builtInClasses.find? fun named => isCallOf named.1 (trim cs) with
      | none => exact absurd hcall (List.find?_eq_none.1 hfind _ hname)
      | some named =>
          have hmem := List.mem_of_find?_eq_some hfind
          have hcall' := List.find?_some hfind
          obtain ⟨c', rest', hcs', -, hhead'⟩ :=
            @exists_cons_of_isCallOf named.1 _ named.2 hmem hcall'
          obtain ⟨rfl, -⟩ := List.cons.inj (hcs.symm.trans hcs')
          rw [builtInClasses_head _ hmem _ hname (hhead'.trans hhead.symm)]
          rfl

/--
**A text with nested brackets has the hint of a list, an object or a call exactly if it is one from
its first character to its last, or if it is a call of a built-in class that goes on with something
that ends in a parenthesis.**  No text is both.
-/
theorem bracketHint_iff {cs : List Char} (h : IsNestedText cs) {hint : Hint}
    (hhint : hint ∈ bracketHints) :
    (Hint.ofText? cs = some hint ↔
      CoversValue hint (trim cs) ∨ GoesOnBehindCall hint (trim cs)) ∧
        ¬(CoversValue hint (trim cs) ∧ GoesOnBehindCall hint (trim cs)) := by
  have hvalue := h.trim
  have hcall : (∃ name, (name, hint) ∈ builtInClasses ∧ isCallOf name (trim cs) = true) ↔
      (∃ name, (name, hint) ∈ builtInClasses ∧ IsCallOn name (trim cs) []) ∨
        GoesOnBehindCall hint (trim cs) := by
    constructor
    · rintro ⟨name, hname, hcall⟩
      obtain ⟨after, hon, rfl | hend⟩ := (isCallOf_iff hname hvalue).1 hcall
      · exact Or.inl ⟨name, hname, hon⟩
      · exact Or.inr ⟨name, after, hname, hon, hend⟩
    · rintro (⟨name, hname, hon⟩ | ⟨name, after, hname, hon, hend⟩)
      · exact ⟨name, hname, (isCallOf_iff hname hvalue).2 ⟨[], hon, Or.inl rfl⟩⟩
      · exact ⟨name, hname, (isCallOf_iff hname hvalue).2 ⟨after, hon, Or.inr hend⟩⟩
  constructor
  · rw [Hint.ofText?_eq_some_iff hhint, isEnclosed_iff rfl hvalue, isEnclosed_iff rfl hvalue,
      hcall, coversValue_iff, or_assoc, or_assoc]
  · rintro ⟨hcovers, hgoes⟩
    exact hcovers.not_goesOnBehindCall hgoes

/-- A list of which an element is taken, as an argument of a call. -/
def callOfElement : List Char :=
  " Array([1][0], (2)) ".toList

/-- The call covers its text, but the element of the list does not cover what it is taken from. -/
theorem bracketHint_iff_callOfElement :
    IsNestedText callOfElement ∧ CoversValue .array (trim callOfElement) ∧
      Hint.ofText? callOfElement = some .array ∧ Hint.ofText? "[1][0]".toList = none := by
  have hnested : IsNestedText callOfElement := by decide
  have hopens : OpensValue .array "Array(".toList ')' :=
    @OpensValue.call "array".toList "Array".toList .array (by decide) rfl
  have hcovers : CoversValue .array (trim callOfElement) :=
    ⟨"Array(".toList, ')', "[1][0], (2)".toList, hopens, by decide, by decide +kernel⟩
  exact ⟨hnested, hcovers, (bracketHint_iff hnested (by decide)).1.2 (Or.inl hcovers),
    by decide +kernel⟩

/-- A member of a new map is called. -/
def memberCall : List Char :=
  "Map().Get(1)".toList

/-- The text has the hint of a map, though the parentheses of the map close before its end. -/
theorem memberCall_keeps_hint :
    IsNestedText memberCall ∧ Hint.ofText? memberCall = some .map ∧
      ¬CoversValue .map (trim memberCall) := by
  refine ⟨by decide, by decide +kernel, fun hcovers => hcovers.not_goesOnBehindCall ?_⟩
  exact ⟨"map".toList, ".Get(1)".toList, by decide,
    ⟨"Map".toList, [], by decide, by decide, by decide +kernel⟩, by decide⟩

end ScriptOutline
