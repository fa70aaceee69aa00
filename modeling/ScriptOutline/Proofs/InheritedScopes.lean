/-
**Chains inherit the scope of their line.**

On a line that is made of chains every name is reported in the scope of the keyword in front, or as
a local one where there is none.  The names that are no parameters are reported from left to right,
each at its first place, and all of them with an initializer.

Main definitions:

* `firstNames` — the first of each name, without those that are taken;
* `ChainLine.ReportedAs` — what is reported for a line of chains;
* `IsCodeText` — a text without quotes and comments;
* `shownOf` — what a body shows of a line;
* `mixedChains` — a declaration with chains, a repeated name and a name of a parameter.

Main results:

* `firstMentions_eq_filter` — what is kept of variables that come in the order of their places;
* `bodyLines_shown` — the body that a text of one line is;
* `chains_inherit_scope` — **chains inherit the scope of their line**.
-/

import ScriptOutline.Proofs.ChainLines
import ScriptOutline.Proofs.KeptAssignments
import ScriptOutline.Proofs.TextLines

set_option relaxedAutoImplicit false
set_option autoImplicit false

namespace ScriptOutline

/-! ### The first of each name -/

/-- Of variables in the order of their columns those are kept that no name before them bars. -/
theorem firstMentions_eq_filter {taken : List String} {vars : List Variable}
    (h : vars.Pairwise fun v w => v.position.column < w.position.column) :
    firstMentions taken vars = vars.filter fun v =>
      lowercase v.name ∉ taken ∧ ∀ w ∈ vars, w.position.column < v.position.column →
        lowercase w.name ≠ lowercase v.name := by
  induction vars generalizing taken with
  | nil => rfl
  | cons u rest ih =>
      obtain ⟨hu, hrest⟩ := List.pairwise_cons.1 h
      have hleft : ∀ w ∈ u :: rest, ¬w.position.column < u.position.column := by
        intro w hw
        rcases List.mem_cons.1 hw with rfl | hw
        · exact Nat.lt_irrefl _
        · exact Nat.lt_asymm (hu w hw)
      simp only [firstMentions, List.contains_iff_mem]
      split
      · next htaken =>
          rw [ih hrest, List.filter_cons_of_neg (by simp [htaken])]
          refine List.filter_congr fun v _ => decide_eq_decide.2 (and_congr_right fun hv => ?_)
          rw [List.forall_mem_cons, and_iff_right_of_imp]
          -- a name that is not taken is not that of the first variable
          rintro - - heq
          exact hv (heq ▸ htaken)
      · next hfree =>
          rw [ih hrest, List.filter_cons_of_pos]
          · refine congrArg (u :: ·) (List.filter_congr fun v hv => decide_eq_decide.2 ?_)
            rw [List.mem_cons, not_or, List.forall_mem_cons, and_comm (a := ¬_ = _), and_assoc]
            exact and_congr_right fun _ => and_congr_left fun _ =>
              ⟨fun hne _ heq => hne heq.symm, fun hne heq => hne (hu v hv) heq.symm⟩
          · exact decide_eq_true ⟨hfree, fun w hw hlt => absurd hlt (hleft w hw)⟩

/-- The first of each name, without the names that are taken; small letters count. -/
def firstNames (taken : List String) (names : List (List Char × Nat)) : List (List Char × Nat) :=
  names.filter fun x =>
    lowercase (String.ofList x.1) ∉ taken ∧
      ∀ y ∈ names, y.2 < x.2 → lowercase (String.ofList y.1) ≠ lowercase (String.ofList x.1)

/-- The variables that are kept of a line are those of the first of each name. -/
theorem firstMentions_map_toVariable {taken : List String} {b : BodyLine} {scope : Scope}
    {ms : List Mention} {names : List (List Char × Nat)} (h : InitializesAt ms names)
    (hms : ms.Pairwise fun a b => a.column < b.column) :
    (firstMentions taken (ms.map (b.toVariable scope))).map
        (fun v => (v.name, v.hasInitializer, v.position)) =
      (firstNames taken names).map fun (name, column) =>
        (String.ofList name, true, ⟨b.number, column⟩) := by
  obtain rfl := h.names_eq
  have hvars : (ms.map (b.toVariable scope)).Pairwise
      fun v w => v.position.column < w.position.column := List.pairwise_map.2 hms
  -- both filters are the one of the mentions that come first
  obtain ⟨first, hdef⟩ : ∃ first : Mention → Bool, first = fun m : Mention =>
      lowercase (String.ofList m.name) ∉ taken ∧ ∀ n ∈ ms, n.column < m.column →
        lowercase (String.ofList n.name) ≠ lowercase (String.ofList m.name) := ⟨_, rfl⟩
  have hkept : (ms.map (b.toVariable scope)).filter (fun v => lowercase v.name ∉ taken ∧
        ∀ w ∈ ms.map (b.toVariable scope), w.position.column < v.position.column →
          lowercase w.name ≠ lowercase v.name) =
      (ms.filter first).map (b.toVariable scope) := by
    rw [List.filter_map, hdef]
    refine congrArg _ (List.filter_congr fun m _ => decide_eq_decide.2 ?_)
    rw [List.forall_mem_map]
    rfl
  have hfirst : firstNames taken (ms.map fun m => (m.name, m.column)) =
      (ms.filter first).map fun m => (m.name, m.column) := by
    rw [firstNames, List.filter_map, hdef]
    refine congrArg _ (List.filter_congr fun m _ => decide_eq_decide.2 ?_)
    rw [List.forall_mem_map]
  rw [firstMentions_eq_filter hvars, hkept, hfirst, List.map_map, List.map_map]
  refine List.map_congr_left fun m hm => ?_
  have hinit := h.hasInitializer (List.mem_filter.1 hm).1
  simp only [Function.comp_apply, BodyLine.toVariable, hinit]

/-! ### Lines of chains -/

/--
What is reported for a line of chains: in the scope of the line the first of each name that no
parameter has, with an initializer and at its place, and nothing in the other scopes.
-/
def ChainLine.ReportedAs (line : ChainLine) (parameters : List Parameter) (number : Nat)
    (found : Variables) : Prop :=
  (found.inScope line.scope).map (fun v => (v.name, v.hasInitializer, v.position)) =
      (firstNames (parameters.map fun p => lowercase p.name) line.columns).map
        (fun (name, column) => (String.ofList name, true, ⟨number, column⟩)) ∧
    ∀ scope, scope ≠ line.scope → found.inScope scope = []

/-- The names of a body that is one line of chains are reported in the scope of the line. -/
theorem ChainLine.reportedAs (line : ChainLine) (parameters : List Parameter) {s : Source}
    {body : Span} {excluded : List Span} {number : Nat}
    (h : bodyLines s body excluded = [⟨number, line.text⟩]) :
    line.ReportedAs parameters number (findVariables s body excluded parameters) := by
  obtain ⟨ms, hmentioned, hnames, hms⟩ := line.exists_mentions number
  have hscope : ∀ v ∈ firstMentions (parameters.map fun p => lowercase p.name)
      (ms.map (BodyLine.toVariable ⟨number, line.text⟩ line.scope)), v.scope = line.scope := by
    intro v hv
    obtain ⟨m, -, rfl⟩ := List.mem_map.1 (mem_of_mem_firstMentions hv)
    rfl
  unfold ReportedAs
  rw [findVariables, h, hmentioned]
  constructor
  · rw [Variables.inScope_ofList, List.filter_eq_self.2 fun v hv => decide_eq_true (hscope v hv)]
    exact firstMentions_map_toVariable hnames hms
  · intro scope hne
    rw [Variables.inScope_ofList, List.filter_eq_nil_iff]
    intro v hv heq
    exact hne ((of_decide_eq_true heq).symm.trans (hscope v hv))

/-! ### Texts of one line -/

/-- A text has no quote, no semicolon and no mark that opens a comment. -/
def IsCodeText (cs : List Char) : Prop :=
  Plain cs ∧ ';' ∉ cs ∧ ¬['/', '*'] <:+: cs

/-- Every character of such a text is read as code. -/
theorem readFrom_of_isCodeText {cs : List Char} (h : IsCodeText cs) (fresh : Bool) :
    Mode.code.readFrom fresh cs = (cs.map (⟨·, .code⟩), .code) := by
  induction cs generalizing fresh with
  | nil => rfl
  | cons c rest ih =>
      obtain ⟨hplain, hsemicolon, hcomment⟩ := h
      obtain ⟨hquote, hrest⟩ := List.forall_mem_cons.1 hplain
      have hdouble : c ≠ '"' := by
        rintro rfl
        exact absurd hquote (by decide)
      have hsingle : c ≠ '\'' := by
        rintro rfl
        exact absurd hquote (by decide)
      have hslash : ¬(c = '/' ∧ rest.head? = some '*') := by
        rintro ⟨rfl, hstar⟩
        obtain ⟨tail, rfl⟩ := List.head?_eq_some_iff.1 hstar
        exact hcomment ⟨[], tail, rfl⟩
      have hne : c ≠ ';' := by
        rintro rfl
        exact hsemicolon List.mem_cons_self
      have hstep : Mode.code.step fresh c rest.head? = (.code, .code) := by
        simp [Mode.step, hne, hslash, hdouble, hsingle]
      have htail : IsCodeText rest := ⟨hrest, fun hmem => hsemicolon (List.mem_cons_of_mem c hmem),
        fun hin => hcomment (hin.trans (List.suffix_cons c rest).isInfix)⟩
      simp only [Mode.readFrom, hstep, ih htail, List.map_cons]

/-- What a body shows of a line that starts in the code, with comments and literals blanked out. -/
def shownOf (line : List Char) : List Char :=
  (Mode.code.read line).1.map Cell.masked

theorem shownOf_of_isCodeText {line : List Char} (h : IsCodeText line) : shownOf line = line := by
  simp [shownOf, Mode.read, readFrom_of_isCodeText h, Cell.masked, Function.comp_def]

/-- A text of one line is a body of what is shown of that line. -/
theorem bodyLines_shown {text line : List Char} (h : linesOf text = [line])
    (hink : ∃ c ∈ shownOf line, isBlank c = false) :
    bodyLines (Source.scan text) ⟨⟨0, 0⟩, (Source.scan text).endPosition⟩ [] =
      [⟨0, shownOf line⟩] := by
  obtain ⟨cells, hcells⟩ : ∃ cells, cells = (Mode.code.read line).1 := ⟨_, rfl⟩
  have hlines : (Source.scan text).lines = [⟨cells, 0⟩] := by
    rw [Source.scan, h, hcells]
    rfl
  have hstop : (Source.scan text).endPosition = ⟨0, cells.length⟩ := by
    simp [Source.endPosition, Source.lineCount, Source.line?, hlines, Line.length]
  have hshown : bodyText ⟨⟨0, 0⟩, ⟨0, cells.length⟩⟩ [] 0 ⟨cells, 0⟩ = shownOf line := by
    rw [bodyText_eq_shownFrom, shownFrom_of_belongsTo, hcells]
    · rfl
    · intro i hi
      refine belongsTo_iff.2 ⟨Span.contains_iff.2 ⟨?_, ?_⟩, by simp⟩
      · exact Or.inr ⟨rfl, Nat.zero_le _⟩
      · exact Or.inr ⟨rfl, by simpa using hi⟩
  obtain ⟨c, hc, hblank⟩ := hink
  have htrim : (trim (shownOf line)).isEmpty = false :=
    List.isEmpty_eq_false_iff.2 (List.ne_nil_of_mem (mem_trim hc hblank))
  simp [bodyLines, hlines, hstop, hshown, htrim]

/-- A text of one line of code is a body of that line. -/
theorem bodyLines_scan {text line : List Char} (h : linesOf text = [line])
    (hcode : IsCodeText line) (hink : ∃ c ∈ line, isBlank c = false) :
    bodyLines (Source.scan text) ⟨⟨0, 0⟩, (Source.scan text).endPosition⟩ [] = [⟨0, line⟩] := by
  rw [← shownOf_of_isCodeText hcode] at hink
  rw [bodyLines_shown h hink, shownOf_of_isCodeText hcode]

/-- A line of chains is not blank. -/
theorem ChainLine.exists_ink (line : ChainLine) : ∃ c ∈ line.text, isBlank c = false := by
  obtain ⟨c, -, l, -, rest, htext⟩ := exists_chainsText_eq_link line.chains_ne_nil
  obtain ⟨d, tail, hname, hd, -⟩ := exists_cons_of_isIdentifier l.name_identifier
  refine ⟨d, ?_, not_isBlank_of_isWordChar (isWordChar_of_isIdentifierStart hd)⟩
  simp [text, htext, l.text_append, hname]

/--
**Chains inherit the scope of their line.**  A body that is one line of chains has the names that no
parameter has for variables: each at its first place and from left to right, with an initializer,
in the scope of the keyword in front, or as local ones where there is none.  Such a body is, among
others, every text of one line of chains without quotes and comments.
-/
theorem chains_inherit_scope (line : ChainLine) (parameters : List Parameter) :
    (∀ s body excluded number, bodyLines s body excluded = [⟨number, line.text⟩] →
      line.ReportedAs parameters number (findVariables s body excluded parameters)) ∧
    ∀ text, linesOf text = [line.text] → IsCodeText line.text →
      line.ReportedAs parameters 0 (findVariables (Source.scan text)
        ⟨⟨0, 0⟩, (Source.scan text).endPosition⟩ [] parameters) := by
  constructor
  · intro s body excluded number h
    exact line.reportedAs parameters h
  · intro text h hcode
    exact line.reportedAs parameters (bodyLines_scan h hcode line.exists_ink)

/-- A declaration with two chains, a name that comes again, and the name of a parameter. -/
def mixedChains : ChainLine where
  lead := [' ']
  modifier := some ⟨.static, "Static".toList, ['\t'], by decide,
    List.all_eq_true.1 (by decide), by decide⟩
  chains :=
    [⟨[⟨[], ['a'], [' '], isBlank_of_mem_nil, by decide +kernel, isBlank_of_mem_space⟩,
        ⟨[' '], "arg".toList, [], isBlank_of_mem_space, by decide +kernel, isBlank_of_mem_nil⟩],
      " [1, 2]".toList, by decide, by decide, by decide +kernel⟩,
     ⟨[⟨[' '], ['A'], [], isBlank_of_mem_space, by decide +kernel, isBlank_of_mem_nil⟩,
        ⟨[], ['c'], [' '], isBlank_of_mem_nil, by decide +kernel, isBlank_of_mem_space⟩],
      " f(x, \x7by: 0\x7d)".toList, by decide, by decide, by decide +kernel⟩]
  lead_blank := isBlank_of_mem_space
  chains_ne_nil := by decide
  names_free := by decide +kernel

/-- The names `a` and `c` are reported as static ones: `A` comes again, and `arg` is a parameter. -/
theorem chains_inherit_scope_mixedChains :
    linesOf " Static\ta := arg:= [1, 2], A:=c := f(x, \x7by: 0\x7d)\r".toList =
        [mixedChains.text] ∧
      IsCodeText mixedChains.text ∧
      let s := Source.scan " Static\ta := arg:= [1, 2], A:=c := f(x, \x7by: 0\x7d)\r".toList
      let found := findVariables s ⟨⟨0, 0⟩, s.endPosition⟩ [] [mixedParameter]
      found.statics.map (fun v => (v.name, v.hasInitializer, v.position)) =
          [("a", true, ⟨0, 8⟩), ("c", true, ⟨0, 30⟩)] ∧
        found.locals = [] ∧ found.globals = [] := by
  have hline : linesOf " Static\ta := arg:= [1, 2], A:=c := f(x, \x7by: 0\x7d)\r".toList =
      [mixedChains.text] := by
    decide +kernel
  have hcode : IsCodeText mixedChains.text :=
    ⟨plain_of_all (by decide +kernel), by decide +kernel, by decide +kernel⟩
  obtain ⟨hstatics, hothers⟩ := (chains_inherit_scope mixedChains [mixedParameter]).2 _ hline hcode
  refine ⟨hline, hcode, ?_, hothers .local (by decide), hothers .global (by decide)⟩
  exact hstatics.trans (by decide +kernel)

end ScriptOutline
