/-
**Hints and the pieces behind an initializer.**

A line such as `x := 1, y := 2` has several pieces.  With the keyword of a scope in front, the line
is cut at its commas, and each name has the hint of its own initializer, as if nothing followed.
Without a keyword the line is not cut: the hint is read off the whole rest of the line.  That rest
is no numeral, no literal, no list and no object any more, and it is a call only if the initializer
starts as one and the line ends with a parenthesis.

Main definitions:

* `startsCallOf`, `startedClass?` — the built-in class of which a text starts with a call;
* `PlainInitializer` — an initializer that ends in the code, closes its brackets and has no comma
  outside of them;
* `reportedHint?` — the hint that the body of a text reports for a name;
* `listThenCall`, `twoIntegers` — initializers with a piece behind them.

Main results:

* `quote_mem_of_shown` — a literal that is closed shows its quote twice;
* `Hint.ofText?_comma` — the hint of an initializer together with what follows it;
* `shownOf_append` — what follows an initializer is shown as if it stood alone;
* `find?_firstMention` — the first mention of a name is reported for it;
* `reportedHint?_assignment`, `PlainInitializer.reportedHint?_declaration` — which part of a line is
  read for the hint, without a keyword and with one;
* `hint_beside_pieces` — **the hint of an initializer with other pieces behind it**;
* `twoIntegers_hides_hint` — a piece that takes the hint of the one before it away.
-/

import Mathlib.Data.List.Find
import ScriptOutline.Proofs.BracketHints
import ScriptOutline.Proofs.InheritedScopes
import ScriptOutline.Proofs.LiteralHints
import ScriptOutline.Proofs.NumeralShapes
import ScriptOutline.Proofs.RedactedDeclarations

set_option relaxedAutoImplicit false
set_option autoImplicit false

namespace ScriptOutline

/-! ### Texts with a comma -/

/-- Between the two quotes of a literal there is no third one. -/
theorem not_isBetween_comma {quote : Char} (hquote : quote ≠ ',') {cs : List Char}
    (h : ∀ rest, cs = quote :: rest → quote ∈ rest) (tail : List Char) :
    isBetween quote (cs ++ ',' :: tail) = false := by
  cases cs with
  | nil => simp [isBetween, hquote.symm]
  | cons c rest =>
      by_cases hc : c = quote
      · subst hc
        have hmem : c ∈ (rest ++ ',' :: tail).dropLast := by
          rw [List.dropLast_append_of_ne_nil (List.cons_ne_nil _ _)]
          exact List.mem_append_left _ (h rest rfl)
        rw [List.cons_append, isBetween, Bool.and_eq_false_iff]
        exact Or.inr (by rw [List.contains_iff_mem.2 hmem]; rfl)
      · simp [isBetween, hc]

/-- A bracket that is closed does not go on up to the end behind a comma. -/
theorem not_isEnclosed_comma {opener closer : Char} (hkind : closes opener closer = true)
    {cs : List Char} (h : IsNestedText cs) (tail : List Char) :
    isEnclosed opener closer (cs ++ ',' :: tail) = false := by
  have hopener := (Source.isBracket_of_closes hkind).1
  cases cs with
  | nil =>
      have hne : ',' ≠ opener := by
        rintro rfl
        exact absurd hopener (by decide)
      simp [isEnclosed, hne]
  | cons c rest =>
      by_cases hc : c = opener
      · subst hc
        obtain ⟨inner, closer', after, rfl, hkind', hinner, -⟩ := h.exists_split hopener
        obtain rfl := (closes_eq hkind hkind').1.1 rfl
        have hend := bracketEndsText_closed hkind hinner (after ++ ',' :: tail)
        simp [isEnclosed, hend]
      · simp [isEnclosed, hc]

/-- Whether a text starts with a name and a parenthesis. -/
def startsCallOf (name cs : List Char) : Bool :=
  match afterWord? name cs with
  | some ('(' :: _) => true
  | _ => false

/-- The built-in class of which a text starts with a call, leading blanks aside. -/
def startedClass? (cs : List Char) : Option Hint :=
  (builtInClasses.find? fun named => startsCallOf named.1 (trimStart cs)).map Prod.snd

/-- No comma is part of a word. -/
theorem afterWord?_comma {name : List Char} (hname : name.all Char.isAlpha = true)
    (cs tail : List Char) :
    afterWord? name (cs ++ ',' :: tail) = (afterWord? name cs).map (· ++ ',' :: tail) := by
  have hlower : ','.toLower = ',' := by decide
  refine afterWord?_append (fun letter hletter => ?_) cs tail
  have hne : letter ≠ ',' := by
    rintro rfl
    exact absurd (List.all_eq_true.1 hname ',' hletter) (by decide)
  simp [foldsTo, hlower, hne.symm]

/-- Behind a comma a call goes on up to the last parenthesis of the text. -/
theorem isCallOf_comma {name : List Char} (hname : name.all Char.isAlpha = true)
    (cs tail : List Char) :
    isCallOf name (cs ++ ',' :: tail) =
      (startsCallOf name cs && (',' :: tail).getLast? = some ')') := by
  rw [isCallOf, startsCallOf, afterWord?_comma hname]
  cases afterWord? name cs with
  | none => rfl
  | some rest =>
      cases rest with
      | nil => rfl
      | cons c rest =>
          by_cases hc : c = '('
          · subst hc
            simp [List.getLast?_append]
          · simp [hc]

/--
The hint of an initializer together with what follows the comma behind it: none, unless it starts
with a call and ends with a parenthesis.
-/
theorem Hint.ofText?_comma {cs : List Char} (hnested : IsNestedText cs)
    (hquote : ∀ (quote : Quote) (rest : List Char), trimStart cs = quote.char :: rest →
      quote.char ∈ rest) (tail : List Char) :
    Hint.ofText? (cs ++ ',' :: tail) =
      if (trim (',' :: tail)).getLast? = some ')' then startedClass? cs else none := by
  have htail : trim (',' :: tail) = ',' :: trimEnd tail := by
    rw [trim, trimStart_of_head (by rintro c ⟨⟩; decide)]
    exact @trimEnd_append [','] (by rintro c ⟨⟩; decide) tail
  have htrim : trim (cs ++ ',' :: tail) = trimStart cs ++ ',' :: trimEnd tail := by
    have hcomma : isBlank ',' = false := by decide
    rw [trim, trimStart_append hcomma, List.append_cons, trimEnd_append (by simp [hcomma])]
    simp
  have hcomma : ',' ∈ trimStart cs ++ ',' :: trimEnd tail := by simp
  obtain ⟨hinteger, hfloat⟩ := not_numeral_of_mem (by decide +kernel) hcomma
  have hbetween (quote : Quote) :
      isBetween quote.char (trimStart cs ++ ',' :: trimEnd tail) = false :=
    not_isBetween_comma (by cases quote <;> decide) (hquote quote) _
  have hlist := @not_isEnclosed_comma '[' ']' rfl _ hnested.trimStart (trimEnd tail)
  have hobject := @not_isEnclosed_comma '{' '}' rfl _ hnested.trimStart (trimEnd tail)
  have hcalls : (builtInClasses.find? fun named =>
      isCallOf named.1 (trimStart cs ++ ',' :: trimEnd tail)) =
        builtInClasses.find? fun named => startsCallOf named.1 (trimStart cs) &&
          decide ((',' :: trimEnd tail).getLast? = some ')') := by
    refine List.find?_congr fun named hnamed => ?_
    exact isCallOf_comma (@class_name_spec named.1 named.2 hnamed).2.1 _ _
  unfold Hint.ofText? startedClass?
  simp only [htrim, hinteger, hfloat, hbetween, hlist, hobject, hcalls, htail]
  by_cases hend : (',' :: trimEnd tail).getLast? = some ')'
  · simp [hend]
  · simp [hend]

/-! ### Initializers as they are shown -/

/-- What is read inside of a literal up to live code shows the quote that closes it. -/
theorem quote_mem_of_within {quote : Quote} {mode : Mode} (hmode : mode.IsWithin quote)
    {fresh : Bool} {cs : List Char} (h : (mode.readFrom fresh cs).2 = .code) :
    quote.char ∈ (mode.readFrom fresh cs).1.map Cell.masked := by
  induction cs generalizing mode fresh with
  | nil => exact absurd h hmode.ne_code
  | cons c rest ih =>
      obtain ⟨hregion, hclose⟩ := @Mode.step_within quote mode fresh c rest.head? hmode
      have hnext : (mode.step fresh c rest.head?).2.IsWithin quote ∨
          (mode.step fresh c rest.head?).2 = .code := by
        rcases hmode with rfl | rfl
        · simp only [Mode.step]
          split
          · exact Or.inl (Or.inr rfl)
          · split
            · exact Or.inr rfl
            · exact Or.inl (Or.inl rfl)
        · exact Or.inl (Or.inl rfl)
      simp only [Mode.readFrom, List.map_cons]
      rcases hnext with hwithin | hcode
      · exact List.mem_cons_of_mem _ (ih hwithin h)
      · refine List.mem_cons.2 (Or.inl ?_)
        rw [hregion, hclose hcode]
        simp [Cell.masked]

/-- Outside of literals a quote that is shown opens one. -/
theorem step_shown {mode : Mode} (hmode : mode.IsOutside) (fresh : Bool) (c : Char)
    (ahead : Option Char) :
    (∃ quote : Quote, c = quote.char ∧
      mode.step fresh c ahead = (.literal quote, .literal quote)) ∨
    (mode.step fresh c ahead).2.IsOutside ∧
      ∀ quote : Quote, Cell.masked ⟨c, (mode.step fresh c ahead).1⟩ ≠ quote.char := by
  by_cases hopen : mode = .code ∧ ∃ quote : Quote, c = quote.char
  · obtain ⟨rfl, quote, rfl⟩ := hopen
    exact Or.inl ⟨quote, rfl, by cases quote <;> simp [Mode.step, Quote.char]⟩
  · have hregion (quote : Quote) : (mode.step fresh c ahead).1 ≠ .literal quote := by
      intro hliteral
      cases mode with
      | code =>
          have hdouble : c ≠ '"' := fun hc => hopen ⟨rfl, .double, hc⟩
          have hsingle : c ≠ '\'' := fun hc => hopen ⟨rfl, .single, hc⟩
          simp only [Mode.step, hdouble, hsingle, if_false] at hliteral
          split at hliteral
          · exact Region.noConfusion hliteral
          · split at hliteral <;> exact Region.noConfusion hliteral
      | lineComment => exact Region.noConfusion hliteral
      | blockComment =>
          simp only [Mode.step] at hliteral
          split at hliteral <;> exact Region.noConfusion hliteral
      | opening => exact Region.noConfusion hliteral
      | closing => exact Region.noConfusion hliteral
      | literal quote' => exact (hmode quote').1 rfl
      | escaped quote' => exact (hmode quote').2 rfl
    rcases Mode.step_outside hmode fresh c ahead with ⟨⟨quote, hliteral⟩, -⟩ | ⟨-, hnext⟩
    · exact absurd hliteral (hregion quote)
    · refine Or.inr ⟨hnext, ?_⟩
      intro quote
      have hspace : ' ' ≠ quote.char := by cases quote <;> decide
      cases hread : (mode.step fresh c ahead).1 with
      | code => exact fun hc => hopen ⟨Mode.eq_code_of_step hread, quote, hc⟩
      | lineComment => exact hspace
      | blockComment => exact hspace
      | literal quote' => exact absurd hread (hregion quote')

/-- A literal that is closed shows its quote twice. -/
theorem quote_mem_of_shown {quote : Quote} {mode : Mode} (hmode : mode.IsOutside) {fresh : Bool}
    {cs rest : List Char} (h : (mode.readFrom fresh cs).2 = .code)
    (hshown : trimStart ((mode.readFrom fresh cs).1.map Cell.masked) = quote.char :: rest) :
    quote.char ∈ rest := by
  induction cs generalizing mode fresh with
  | nil => simp [Mode.readFrom, trimStart] at hshown
  | cons c tail ih =>
      simp only [Mode.readFrom, List.map_cons] at h hshown
      rcases step_shown hmode fresh c tail.head? with ⟨quote', rfl, hstep⟩ | ⟨hnext, hnone⟩
      · rw [hstep] at h hshown
        rw [trimStart_of_head (by simp [Cell.masked, quote'.isBlank_char])] at hshown
        obtain ⟨hchar, rfl⟩ := List.cons.inj hshown
        simp only [Cell.masked, if_true] at hchar
        rw [← hchar]
        exact quote_mem_of_within (Or.inl rfl) h
      · cases hblank : isBlank (Cell.masked ⟨c, (mode.step fresh c tail.head?).1⟩) with
        | true =>
            refine ih hnext h ?_
            rw [← hshown, trimStart, trimStart, List.dropWhile_cons_of_pos hblank]
        | false =>
            rw [trimStart_of_head (by rintro d ⟨⟩; exact hblank)] at hshown
            exact absurd (List.cons.inj hshown).1 (hnone quote)

/-- Whether a character is the first of its line counts only for a semicolon. -/
theorem readFrom_fresh {line : List Char} (h : line.head? ≠ some ';') (fresh fresh' : Bool) :
    Mode.code.readFrom fresh line = Mode.code.readFrom fresh' line := by
  cases line with
  | nil => rfl
  | cons c rest =>
      have hc : c ≠ ';' := by
        rintro rfl
        exact h rfl
      have hstep (b : Bool) :
          Mode.code.step b c rest.head? = Mode.code.step false c rest.head? := by
        simp [Mode.step, hc]
      simp only [Mode.readFrom, hstep]

/-- What follows a stretch that ends in the code is shown as if it stood alone. -/
theorem shownOf_append {xs ys : List Char} (hend : (Mode.code.read xs).2 = .code)
    (hseam : ∀ c ∈ xs.getLast?, ∀ d ∈ ys.head?, ¬Mode.IsCommentMark c d)
    (hfresh : Mode.freshAfter true xs = true ∨ ys.head? ≠ some ';') :
    shownOf (xs ++ ys) = shownOf xs ++ shownOf ys := by
  have hend' : (Mode.code.readFrom true xs).2 = .code := hend
  have hlast (quote : Quote) : (Mode.code.readFrom true xs).2 ≠ .literal quote := by
    rw [hend']
    exact fun h => Mode.noConfusion h
  have hrest : Mode.code.readFrom (Mode.freshAfter true xs) ys = Mode.code.readFrom true ys := by
    rcases hfresh with hfresh | hhead
    · rw [hfresh]
    · exact readFrom_fresh hhead _ _
  rw [shownOf, Mode.read, Mode.readFrom_append hlast hseam, List.map_append, hend', hrest]
  rfl

/-- Characters of a class without quotes, semicolons and slashes are a text of code. -/
theorem isCodeText_of_class {p : Char → Bool}
    (hp : (['"', '\'', ';', '/'].all fun d => !p d) = true) {cs : List Char}
    (h : ∀ c ∈ cs, p c = true) : IsCodeText cs := by
  simp only [List.all_cons, List.all_nil, Bool.and_true, Bool.and_eq_true, Bool.not_eq_true'] at hp
  obtain ⟨hdouble, hsingle, hsemicolon, hslash⟩ := hp
  refine ⟨plain_of_forall hdouble hsingle h, ?_, ?_⟩
  · intro hmem
    rw [h _ hmem] at hsemicolon
    exact Bool.noConfusion hsemicolon
  · intro hin
    rw [h '/' (hin.subset List.mem_cons_self)] at hslash
    exact Bool.noConfusion hslash

/-! ### Statements -/

/-- The text of an assignment to a name. -/
def assignment (name value : List Char) : List Char :=
  name ++ ' ' :: ':' :: '=' :: ' ' :: value

/--
An initializer that ends in the code, closes the brackets that it opens, and has no assignment and
no comma outside of these.  All of that is asked of what is shown of it.
-/
structure PlainInitializer (value : List Char) : Prop where
  ends_code : (Mode.code.read value).2 = .code
  nested : IsNestedText (shownOf value)
  closed : isClosed 0 (shownOf value) = true
  unmarked : ¬[':', '='] <:+: shownOf value

/-- A name that is no keyword and no parameter. -/
structure IsNewName (parameters : List Parameter) (name : List Char) : Prop where
  identifier : isIdentifier name = true
  no_keyword : isKeyword (String.ofList name) = false
  no_parameter : lowercase (String.ofList name) ∉ parameters.map fun q => lowercase q.name

/-- The name and the mark in front of an initializer are shown as they are, and it as if alone. -/
theorem shownOf_assignment {name : List Char} (hname : isIdentifier name = true)
    {lead : List Char} (hlead : ∀ c ∈ lead, c.isAlpha = true ∨ c = ' ') (value : List Char) :
    shownOf (lead ++ assignment name value) = lead ++ assignment name (shownOf value) := by
  have hcode : IsCodeText (lead ++ (name ++ [' ', ':', '=', ' '])) := by
    refine isCodeText_of_class
      (p := fun c => c.isAlpha || isWordChar c || c = ' ' || c = ':' || c = '=')
      (by decide +kernel) ?_
    intro c hc
    rcases List.mem_append.1 hc with hc | hc
    · rcases hlead c hc with hc | rfl
      · simp [hc]
      · simp
    · rcases List.mem_append.1 hc with hc | hc
      · simp [isWordChar_of_mem hname hc]
      · simp only [List.mem_cons, List.not_mem_nil, or_false] at hc
        rcases hc with rfl | rfl | rfl | rfl <;> simp
  have hsplit (value : List Char) : lead ++ assignment name value =
      lead ++ (name ++ [' ', ':', '=', ' ']) ++ value := by
    simp [assignment]
  have hlast : (lead ++ (name ++ [' ', ':', '=', ' '])).getLast? = some ' ' := by simp
  rw [hsplit, shownOf_append, shownOf_of_isCodeText hcode, hsplit]
  · rw [Mode.read, readFrom_of_isCodeText hcode]
  · intro c hc d _ hmark
    rw [hlast] at hc
    obtain rfl := Option.some.inj hc
    rcases hmark with ⟨hc, -⟩ | ⟨hc, -⟩ <;> exact absurd hc (by decide)
  · left
    rw [Mode.freshAfter, hlast]
    decide

/-- The pieces behind an initializer are shown as if it were not there. -/
theorem PlainInitializer.shownOf_comma {value : List Char} (h : PlainInitializer value)
    (more : List Char) :
    shownOf (value ++ ',' :: more) = shownOf value ++ shownOf (',' :: more) := by
  refine shownOf_append h.ends_code ?_ (Or.inr (by simp))
  rintro c - d ⟨⟩ (⟨-, hd⟩ | ⟨-, hd⟩) <;> exact absurd hd (by decide)

theorem shownOf_comma_cons (more : List Char) :
    shownOf (',' :: more) = ',' :: (Mode.code.readFrom false more).1.map Cell.masked := by
  rfl

/-- The link of a name at the start of a line, with a blank in front of the mark. -/
def linkOf {name : List Char} (h : isIdentifier name = true) : Link :=
  ⟨[], name, [' '], isBlank_of_mem_nil, h, isBlank_of_mem_space⟩

theorem assignment_eq {name : List Char} (h : isIdentifier name = true) (value : List Char) :
    assignment name value = (linkOf h).text ++ ' ' :: value := by
  simp [assignment, linkOf, Link.text]

/-- An initializer assigns to no name, and neither does one with a comma behind it. -/
theorem assignedName?_comma {cs : List Char} (h : ¬[':', '='] <:+: cs) (tail : List Char) :
    assignedName? (cs ++ ',' :: tail) = none := by
  cases hname : assignedName? (cs ++ ',' :: tail) with
  | none => rfl
  | some found =>
      obtain ⟨name, after⟩ := found
      obtain ⟨l, -, heq⟩ := exists_link hname
      have hmark : [':', '='] <:+: l.text := ⟨l.lead ++ (l.name ++ l.gap), [], by simp [Link.text]⟩
      rcases List.append_eq_append_iff.1 heq with ⟨w, htext, hw⟩ | ⟨w, rfl, -⟩
      · cases w with
        | nil =>
            rw [List.append_nil] at htext
            exact absurd (htext ▸ hmark) h
        | cons c w =>
            -- No comma is part of a link.
            obtain ⟨rfl, -⟩ := List.cons.inj hw
            have hmem : ',' ∈ [l].flatMap Link.text := by simp [htext]
            exact absurd rfl (charStep_of_mem_links hmem).1
      · exact absurd (hmark.trans (List.prefix_append _ _).isInfix) h

/-! ### The first mention of a name -/

/-- The hint that the body of a text reports for a name, if it reports the name at all. -/
def reportedHint? (parameters : List Parameter) (text name : List Char) :
    Option (Option String) :=
  ((findVariables (Source.scan text) ⟨⟨0, 0⟩, (Source.scan text).endPosition⟩ []
    parameters).toList.find? fun v => v.name = String.ofList name).map Variable.typeHint

/-- The first mention of a name that is not taken is what is reported for it. -/
theorem find?_firstMention {taken : List String} {v : Variable} (h : lowercase v.name ∉ taken)
    (rest : List Variable) :
    (Variables.ofList (firstMentions taken (v :: rest))).toList.find? (fun u => u.name = v.name) =
      some v := by
  have hvars : firstMentions taken (v :: rest) =
      v :: firstMentions (lowercase v.name :: taken) rest := by
    simp [firstMentions, h]
  have hmem : v ∈ (Variables.ofList (firstMentions taken (v :: rest))).toList := by
    rw [Variables.mem_toList_ofList, hvars]
    exact List.mem_cons_self
  cases hfind : (Variables.ofList (firstMentions taken (v :: rest))).toList.find?
      fun u => u.name = v.name with
  | none => exact absurd (decide_eq_true rfl) (List.find?_eq_none.1 hfind v hmem)
  | some u =>
      have hname : u.name = v.name := by simpa using List.find?_some hfind
      have hu := Variables.mem_toList_ofList.1 (List.mem_of_find?_eq_some hfind)
      rw [hvars] at hu
      rcases List.mem_cons.1 hu with rfl | hu
      · rfl
      · -- Behind the first mention its name is taken.
        refine absurd ?_ (mem_firstMentions_iff.1 hu).1
        rw [hname]
        exact List.mem_cons_self

/-- What a line mentions first is reported. -/
theorem reportedHint?_eq {parameters : List Parameter} {text line name : List Char}
    (hname : IsNewName parameters name) (h : linesOf text = [line])
    (hink : ∃ c ∈ shownOf line, isBlank c = false) {v : Variable} {rest : List Variable}
    (hmentioned : mentionedVariables [⟨0, shownOf line⟩] = v :: rest)
    (hv : v.name = String.ofList name) :
    reportedHint? parameters text name = some v.typeHint := by
  rw [reportedHint?, findVariables, bodyLines_shown h hink, hmentioned, ← hv, find?_firstMention]
  · rfl
  · rw [hv]
    exact hname.no_parameter

section

variable {parameters : List Parameter} {name value : List Char}

/-- Without a keyword the first name of a line has the hint of all that follows its mark. -/
theorem exists_mentioned_assignment (hname : IsNewName parameters name)
    (hnone : assignedName? (' ' :: value) = none) :
    ∃ rest, mentionedVariables [⟨0, assignment name value⟩] =
      ⟨String.ofList name, .local, true, ⟨0, 0⟩, (Hint.ofText? value).map Hint.name⟩ :: rest := by
  have hhint : valueHint? (' ' :: value) = Hint.ofText? value := by
    have hlinks := valueHint?_links hnone []
    rw [List.flatMap_nil, List.nil_append] at hlinks
    rw [hlinks, ← Hint.ofText?_trim, trim_space_cons, Hint.ofText?_trim]
  have htail : (' ' :: ':' :: '=' :: ' ' :: value).head?.any isWordChar = false := by
    rw [List.head?_cons, Option.any_some]
    decide +kernel
  have hdeclared := declaredOn?_of_name isBlank_of_mem_nil hname.identifier hname.no_keyword htail
  have hloop := loopNames_of_name isBlank_of_mem_nil hname.identifier hname.no_keyword htail
  have hcaught := caughtNames_of_name isBlank_of_mem_nil hname.identifier hname.no_keyword htail
  rw [List.nil_append, ← assignment] at hdeclared hloop hcaught
  have hassigned := @assignmentsFrom_link none 0 (' ' :: value) (linkOf hname.identifier) rfl
  rw [← assignment_eq] at hassigned
  have hmentioned : mentionedVariables [⟨0, assignment name value⟩] =
      (assignedNames (assignment name value)).map
        (BodyLine.toVariable ⟨0, assignment name value⟩ .local) := by
    simp [mentionedVariables, BodyLine.declared, BodyLine.implied, hdeclared, impliedOn, hloop,
      hcaught]
  rw [hmentioned, assignedNames, hassigned, List.map_cons, hhint]
  exact ⟨_, rfl⟩

/-- The keyword of a scope with one blank behind it. -/
def Scope.plainModifier (scope : Scope) : Modifier :=
  ⟨scope, scope.keyword.toList, [' '], by cases scope <;> decide, isBlank_of_mem_space, by decide⟩

/-- An assignment starts with its name. -/
theorem head?_assignment (hname : isIdentifier name = true) (value rest : List Char) :
    ∃ c ∈ (assignment name value ++ rest).head?, isBlank c = false := by
  obtain ⟨c, tail, hcons, hc, -⟩ := exists_cons_of_isIdentifier hname
  exact ⟨c, by simp [assignment, hcons],
    not_isBlank_of_isWordChar (isWordChar_of_isIdentifierStart hc)⟩

/-- An assignment to a name shows the name. -/
theorem ink_of_assignment (hname : isIdentifier name = true) (lead value rest : List Char) :
    ∃ c ∈ lead ++ (assignment name value ++ rest), isBlank c = false := by
  obtain ⟨c, hc, hblank⟩ := head?_assignment hname value rest
  exact ⟨c, List.mem_append_right _ (List.mem_of_mem_head? hc), hblank⟩

/-- An assignment is the first piece before a comma if its initializer has none of its own. -/
theorem piecesFrom_assignment (hname : isIdentifier name = true) (hclosed : isClosed 0 value = true)
    (more : List Char) : piecesFrom 0 (assignment name value ++ ',' :: more) =
      assignment name value :: piecesFrom 0 more := by
  have hvalue : piecesFrom 0 (value ++ ',' :: more) = value :: piecesFrom 0 more := by
    rw [piecesFrom_append_comma (foldl_charStep_of_isClosed hclosed),
      piecesFrom_of_isClosed hclosed, List.singleton_append]
  have hlink : ∀ d ∈ (linkOf hname).text ++ [' '],
      d ≠ ',' ∧ ∀ depth, charStep depth d = depth := by
    intro d hd
    rcases List.mem_append.1 hd with hd | hd
    · have hmem : d ∈ [linkOf hname].flatMap Link.text := by simpa using hd
      exact charStep_of_mem_links hmem
    · exact charStep_of_class (p := isBlank) (by decide) (isBlank_of_mem_space d hd)
  have hwhole := piecesFrom_append_plain hlink hvalue
  rw [assignment_eq hname]
  simpa using hwhole

/-- An assignment mentions its name, with the hint of its initializer. -/
theorem declaredIn_assignment (hname : isIdentifier name = true)
    (hnone : assignedName? (' ' :: value) = none) (column : Nat) :
    declaredIn column (assignment name value) = [⟨name, column, true, Hint.ofText? value⟩] := by
  have hchain := readChain_links column (List.cons_ne_nil (linkOf hname) []) hnone
  rw [List.flatMap_cons, List.flatMap_nil, List.append_nil, ← assignment_eq] at hchain
  simp only [declaredIn, hchain, linkColumns, List.map_cons, List.map_nil, Option.isSome_some,
    Option.bind_some, Hint.ofText?_trim, trim_space_cons]
  rfl

/-- Behind a keyword the first name of a line has the hint of its own initializer. -/
theorem exists_mentioned_declaration (hname : IsNewName parameters name) (scope : Scope)
    (hnone : assignedName? (' ' :: value) = none) (hclosed : isClosed 0 value = true)
    (more : List Char) :
    ∃ column rest, mentionedVariables
        [⟨0, scope.keyword.toList ++ ' ' :: (assignment name value ++ ',' :: more)⟩] =
      ⟨String.ofList name, scope, true, ⟨0, column⟩, (Hint.ofText? value).map Hint.name⟩ ::
        rest := by
  obtain ⟨line, hline⟩ : ∃ line, line =
      scope.keyword.toList ++ ' ' :: (assignment name value ++ ',' :: more) := ⟨_, rfl⟩
  have hscope : scopeOf? line = some (scope, assignment name value ++ ',' :: more) := by
    have hscope := (scope.plainModifier).scopeOf?_eq isBlank_of_mem_nil
      (head?_assignment hname.identifier value (',' :: more)) isBlank_of_mem_nil
    rw [hline]
    exact hscope
  obtain ⟨column, ms, hdeclared⟩ : ∃ column ms, declaredOn? line =
      some (scope, ⟨name, column, true, Hint.ofText? value⟩ :: ms) := by
    simp only [declaredOn?, hscope, Option.map_some, splitPieces,
      piecesFrom_assignment hname.identifier hclosed, withColumns, List.flatMap_cons,
      declaredIn_assignment hname.identifier hnone]
    exact ⟨_, _, rfl⟩
  refine ⟨column, ms.map (BodyLine.toVariable ⟨0, line⟩ scope), ?_⟩
  rw [← hline]
  simp [mentionedVariables, BodyLine.declared, BodyLine.implied, hdeclared, BodyLine.toVariable]

/-- What follows a comma is part of what is assigned, as far as the text goes. -/
theorem assignment_comma (name value more : List Char) :
    assignment name value ++ ',' :: more = assignment name (value ++ ',' :: more) := by
  simp [assignment]

/-- Without a keyword all that is shown behind the mark is read for the hint. -/
theorem reportedHint?_assignment (hname : IsNewName parameters name)
    (hnone : assignedName? (' ' :: shownOf value) = none) {text : List Char}
    (htext : linesOf text = [assignment name value]) :
    reportedHint? parameters text name =
      some ((Hint.ofText? (shownOf value)).map Hint.name) := by
  have hline : shownOf (assignment name value) = assignment name (shownOf value) :=
    @shownOf_assignment _ hname.identifier [] (by simp) value
  obtain ⟨rest, hmentioned⟩ := exists_mentioned_assignment hname hnone
  rw [← hline] at hmentioned
  have hink : ∃ c ∈ shownOf (assignment name value), isBlank c = false := by
    rw [hline]
    simpa using ink_of_assignment hname.identifier [] (shownOf value) []
  exact reportedHint?_eq hname htext hink hmentioned rfl

namespace PlainInitializer

variable (h : PlainInitializer value)

include h

/-- Nothing that a plain initializer shows is assigned to. -/
theorem not_assigns : ¬[':', '='] <:+: ' ' :: shownOf value := by
  rw [List.infix_cons_iff, not_or]
  refine ⟨?_, h.unmarked⟩
  rintro ⟨tail, htail⟩
  exact absurd (List.cons.inj htail).1 (by decide)

/-- Behind a keyword only the initializer is read for the hint. -/
theorem reportedHint?_declaration (hname : IsNewName parameters name) (scope : Scope)
    {more text : List Char} (htext : linesOf text =
      [scope.keyword.toList ++ ' ' :: (assignment name value ++ ',' :: more)]) :
    reportedHint? parameters text name =
      some ((Hint.ofText? (shownOf value)).map Hint.name) := by
  have hlead : ∀ c ∈ scope.keyword.toList ++ [' '], c.isAlpha = true ∨ c = ' ' := by
    intro c hc
    rcases List.mem_append.1 hc with hc | hc
    · exact Or.inl (List.all_eq_true.1 scope.keyword_all_isAlpha c hc)
    · exact Or.inr (List.mem_singleton.1 hc)
  have hline : shownOf (scope.keyword.toList ++ ' ' :: (assignment name value ++ ',' :: more)) =
      scope.keyword.toList ++
        ' ' :: (assignment name (shownOf value) ++ shownOf (',' :: more)) := by
    have hassign := shownOf_assignment hname.identifier hlead (value ++ ',' :: more)
    rw [h.shownOf_comma] at hassign
    simpa [assignment] using hassign
  obtain ⟨column, rest, hmentioned⟩ := exists_mentioned_declaration hname scope
    (assignedName?_of_unmarked h.not_assigns) h.closed
    ((Mode.code.readFrom false more).1.map Cell.masked)
  rw [← shownOf_comma_cons, ← hline] at hmentioned
  have hink : ∃ c ∈ shownOf (scope.keyword.toList ++
      ' ' :: (assignment name value ++ ',' :: more)), isBlank c = false := by
    rw [hline]
    simpa using ink_of_assignment hname.identifier (scope.keyword.toList ++ [' '])
      (shownOf value) (shownOf (',' :: more))
  exact reportedHint?_eq hname htext hink hmentioned rfl

/-- The hint of all that is shown behind the mark, if a comma follows the initializer. -/
theorem ofText?_comma (more : List Char) : Hint.ofText? (shownOf (value ++ ',' :: more)) =
    if (trim (shownOf (',' :: more))).getLast? = some ')' then
      startedClass? (shownOf value) else none := by
  rw [h.shownOf_comma, shownOf_comma_cons]
  exact Hint.ofText?_comma h.nested
    (fun quote rest hrest => quote_mem_of_shown Mode.isOutside_code h.ends_code hrest) _

end PlainInitializer

/--
**The hint of an initializer with other pieces behind it.**  An initializer that is alone on its
line, or that stands in a declaration with a keyword, has its own hint, whatever follows the comma
behind it.  Without a keyword it has none, unless it starts with a call of a built-in class and the
line ends with a parenthesis: then the hint is that class.
-/
theorem hint_beside_pieces (hname : IsNewName parameters name) (hvalue : PlainInitializer value) :
    (∀ text, linesOf text = [assignment name value] →
      reportedHint? parameters text name = some ((Hint.ofText? (shownOf value)).map Hint.name)) ∧
    (∀ (scope : Scope) (more text : List Char),
      linesOf text = [scope.keyword.toList ++ ' ' :: (assignment name value ++ ',' :: more)] →
        reportedHint? parameters text name =
          some ((Hint.ofText? (shownOf value)).map Hint.name)) ∧
    ∀ more text : List Char, linesOf text = [assignment name value ++ ',' :: more] →
      reportedHint? parameters text name =
        some ((if (trim (shownOf (',' :: more))).getLast? = some ')' then
          startedClass? (shownOf value) else none).map Hint.name) := by
  refine ⟨fun text htext => ?_, fun scope more text htext => ?_, fun more text htext => ?_⟩
  · exact reportedHint?_assignment hname (assignedName?_of_unmarked hvalue.not_assigns) htext
  · exact hvalue.reportedHint?_declaration hname scope htext
  · have hnone : assignedName? (' ' :: shownOf (value ++ ',' :: more)) = none := by
      rw [hvalue.shownOf_comma, shownOf_comma_cons]
      exact assignedName?_comma hvalue.not_assigns _
    rw [assignment_comma] at htext
    rw [reportedHint?_assignment hname hnone htext, hvalue.ofText?_comma]

end

/-- What stands behind a list: another piece, which ends with a parenthesis. -/
def listThenCall : List Char :=
  " y := F(3)".toList

/-- The list has its hint with a keyword in front of it, and none without. -/
theorem hint_beside_pieces_listThenCall :
    IsNewName [] ['x'] ∧ PlainInitializer "[1, 2]".toList ∧
      reportedHint? [] ("local ".toList ++ (assignment ['x'] "[1, 2]".toList ++
        ',' :: listThenCall)) ['x'] = some (some "Array") ∧
      reportedHint? [] (assignment ['x'] "[1, 2]".toList ++ ',' :: listThenCall) ['x'] =
        some none := by
  have hname : IsNewName [] ['x'] := ⟨by decide, by decide +kernel, by simp⟩
  have hvalue : PlainInitializer "[1, 2]".toList :=
    ⟨by decide, by decide +kernel, by decide +kernel, by decide +kernel⟩
  obtain ⟨-, hkeyword, hplain⟩ := @hint_beside_pieces [] _ _ hname hvalue
  refine ⟨hname, hvalue, ?_, ?_⟩
  · rw [hkeyword .local listThenCall _ (by decide)]
    decide +kernel
  · rw [hplain listThenCall _ (by decide)]
    decide +kernel

/-- What stands behind an integer: another piece. -/
def twoIntegers : List Char :=
  " y := 2".toList

/-- The integer has its hint alone and with a keyword in front of it, and none without. -/
theorem twoIntegers_hides_hint :
    PlainInitializer ['1'] ∧
      reportedHint? [] (assignment ['x'] ['1']) ['x'] = some (some "Integer") ∧
      reportedHint? [] ("local ".toList ++ (assignment ['x'] ['1'] ++ ',' :: twoIntegers)) ['x'] =
        some (some "Integer") ∧
      reportedHint? [] (assignment ['x'] ['1'] ++ ',' :: twoIntegers) ['x'] = some none := by
  refine ⟨⟨by decide, by decide +kernel, by decide +kernel, by decide +kernel⟩, ?_, ?_, ?_⟩ <;>
    decide +kernel

end ScriptOutline
