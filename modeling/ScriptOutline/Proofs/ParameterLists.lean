/-
**Lists of parameters and numbers of arguments.**

A segment of a list becomes a parameter only if its parts go together: it has a name, or collects
further arguments without one; a default value makes it optional and is refused to a collector.  A
list is read only if no collector comes before its end.  The bounds on the number of arguments are
those of the list, and a list that cannot be read counts as empty.

Main definitions:

* `IsTrimmed` — a text without blanks at its ends;
* `Parameter.FitsAt` — what holds of a parameter at a place of its list;
* `Routine.ListsParameters` — what holds of the parameters of a record and of its bounds.

Main results:

* `isTrimmed_trim` — trimming leaves no blanks at the ends;
* `Parameter.read_fits` — every parameter that is read fits;
* `readSegments_fits`, `readParameters_spec` — so do those of a whole list, at their places;
* `le_requiredCount_iff` — the required parameters at the start of a list;
* `argLimit_eq_variadic_iff`, `argLimit_eq_count_iff` — the largest number of arguments;
* `listsParameters_of_mem_routinesOf` — the parameters of every record, and its bounds.
-/

import Mathlib.Data.List.DropRight
import ScriptOutline.Proofs.RecordOrder

set_option relaxedAutoImplicit false
set_option autoImplicit false

namespace ScriptOutline

/-! ### Trimmed texts -/

/-- A text has no blank at either end. -/
def IsTrimmed (cs : List Char) : Prop :=
  (∀ c ∈ cs.head?, isBlank c = false) ∧ ∀ c ∈ cs.getLast?, isBlank c = false

theorem trimEnd_eq_rdropWhile (cs : List Char) : trimEnd cs = cs.rdropWhile isBlank := rfl

/-- Trimming leaves no blanks at the ends. -/
theorem isTrimmed_trim (cs : List Char) : IsTrimmed (trim cs) := by
  rw [trim, trimEnd_eq_rdropWhile]
  constructor
  · intro c hc
    -- what is left starts as the text does without its leading blanks
    obtain ⟨rest, hrest⟩ := List.rdropWhile_prefix isBlank (trimStart cs)
    have hhead : (trimStart cs).head? = some c := by
      rw [← hrest, List.head?_append, Option.mem_def.1 hc]
      rfl
    have hnot := List.head?_dropWhile_not isBlank cs
    rw [trimStart] at hhead
    rw [hhead] at hnot
    simpa using hnot
  · intro c hc
    obtain ⟨hne, rfl⟩ := List.mem_getLast?_eq_getLast hc
    have hnot := List.rdropWhile_last_not isBlank (trimStart cs) hne
    simpa using hnot

/-! ### One parameter -/

theorem exists_ok_of_bind {ε α β : Type} {x : Except ε α} {f : α → Except ε β} {b : β}
    (h : x >>= f = .ok b) : ∃ a, x = .ok a ∧ f a = .ok b := by
  cases x with
  | error e => simp [bind, Except.bind] at h
  | ok a => exact ⟨a, rfl, h⟩

/-- What holds of a parameter at a place of its list. -/
structure Parameter.FitsAt (place : Nat) (p : Parameter) : Prop where
  position_eq : p.position = place
  /-- The name is an identifier, but a collector may do without. -/
  name_identifier : isIdentifier p.name.toList = true ∨ p.name = anonymous ∧ p.variadic = true
  /-- A default value makes a parameter optional, and a collector has none. -/
  optional_of_default : p.defaultValue.isSome = true → p.optional = true ∧ p.variadic = false
  /-- A type hint is some text without blanks at its ends. -/
  hint_trimmed : ∀ hint ∈ p.typeHint, hint.toList ≠ [] ∧ IsTrimmed hint.toList

/-- The hint of what is declared is some text without blanks at its ends. -/
theorem readDeclared_hint {position : Nat} {cs name hint : List Char} {found : Option (List Char)}
    {markers : Markers} (h : readDeclared position cs = .ok (name, found, markers))
    (hhint : hint ∈ found) : hint ≠ [] ∧ IsTrimmed hint := by
  unfold readDeclared at h
  generalize stripMarkers cs = stripped at h
  obtain ⟨declared, outer⟩ := stripped
  simp only at h
  split at h
  · simp only [Except.ok.injEq, Prod.mk.injEq] at h
    rw [← h.2.1] at hhint
    simp at hhint
  · next before after hcolon =>
      split at h
      · simp at h
      · next hempty =>
          simp only [Except.ok.injEq, Prod.mk.injEq] at h
          rw [← h.2.1, Option.mem_def, Option.some.injEq] at hhint
          rw [← hhint]
          exact ⟨by simpa using hempty, isTrimmed_trim after⟩

/-- A name that is read is an identifier, or stands for a collector without one. -/
theorem readName_spec {name : List Char} {variadic : Bool} {read : String}
    (h : readName name variadic = .ok read) :
    isIdentifier read.toList = true ∨ read = Parameter.anonymous ∧ variadic = true := by
  unfold readName at h
  split at h
  · next hanonymous =>
      simp only [Bool.and_eq_true] at hanonymous
      simp only [Except.ok.injEq] at h
      exact Or.inr ⟨h.symm, hanonymous.2⟩
  · split at h
    · next hidentifier =>
        simp only [Except.ok.injEq] at h
        rw [← h, String.toList_ofList]
        exact Or.inl hidentifier
    · simp at h

/-- A collector has no default value. -/
theorem readDefault_spec {name : String} {variadic : Bool} {text : Option (List Char)}
    {value : Option DefaultValue} (h : readDefault name variadic text = .ok value)
    (hvalue : value.isSome = true) : variadic = false := by
  cases text with
  | none =>
      simp only [readDefault, Except.ok.injEq] at h
      rw [← h] at hvalue
      simp at hvalue
  | some text =>
      simp only [readDefault] at h
      split at h
      · simp at h
      · split at h
        · simp at h
        · next hvariadic => simpa using hvariadic

/-- Every parameter that is read fits at its place. -/
theorem Parameter.read_fits {position : Nat} {segment : List Char} {p : Parameter}
    (h : Parameter.read position segment = .ok p) : p.FitsAt position := by
  simp only [Parameter.read] at h
  split at h
  · simp at h
  · obtain ⟨⟨name, found, markers⟩, hdeclared, h⟩ := exists_ok_of_bind h
    obtain ⟨readAs, hname, h⟩ := exists_ok_of_bind h
    obtain ⟨value, hvalue, h⟩ := exists_ok_of_bind h
    simp only [pure, Except.pure, Except.ok.injEq] at h
    rw [← h]
    constructor
    · rfl
    · exact readName_spec hname
    · intro hsome
      exact ⟨by simp [hsome], readDefault_spec hvalue hsome⟩
    · intro hint hhint
      obtain ⟨text, htext, rfl⟩ := Option.map_eq_some_iff.1 hhint
      rw [String.toList_ofList]
      exact readDeclared_hint hdeclared htext

/-! ### Lists of parameters -/

/-- The parameters of consecutive segments fit at their places. -/
theorem readSegments_fits {position : Nat} {segments : List (List Char)} {ps : List Parameter}
    (h : readSegments position segments = .ok ps) {i : Nat} {p : Parameter}
    (hp : ps[i]? = some p) : p.FitsAt (position + i) := by
  induction segments generalizing position ps i with
  | nil =>
      simp only [readSegments, Except.ok.injEq] at h
      rw [← h] at hp
      simp at hp
  | cons segment rest ih =>
      simp only [readSegments] at h
      obtain ⟨first, hfirst, h⟩ := exists_ok_of_bind h
      obtain ⟨others, hothers, h⟩ := exists_ok_of_bind h
      simp only [pure, Except.pure, Except.ok.injEq] at h
      rw [← h] at hp
      cases i with
      | zero =>
          simp only [List.getElem?_cons_zero, Option.some.injEq] at hp
          rw [← hp]
          exact Parameter.read_fits hfirst
      | succ i =>
          simp only [List.getElem?_cons_succ] at hp
          have hfits := ih hothers hp
          rwa [Nat.add_assoc, Nat.add_comm 1 i] at hfits

/-- Where no collector is misplaced, a collector is the last parameter. -/
theorem last_of_variadic {ps : List Parameter} (h : misplacedVariadic? ps = none) {i : Nat}
    {p : Parameter} (hp : ps[i]? = some p) (hvariadic : p.variadic = true) : i + 1 = ps.length := by
  obtain ⟨hi, hget⟩ := List.getElem?_eq_some_iff.1 hp
  by_contra hne
  have hmem : p ∈ ps.reverse.tail := by
    rw [List.tail_reverse, List.mem_reverse, ← hget, List.mem_iff_getElem]
    exact ⟨i, by rw [List.length_dropLast]; omega, List.getElem_dropLast ..⟩
  have hnot := List.find?_eq_none.1 h p hmem
  exact hnot hvariadic

/-- The parameters of a list that is read fit at their places, and only the last may collect. -/
theorem readParameters_spec {cells : List Cell} {ps : List Parameter}
    (h : readParameters cells = .ok ps) {i : Nat} {p : Parameter} (hp : ps[i]? = some p) :
    p.FitsAt i ∧ (p.variadic = true → i + 1 = ps.length) := by
  simp only [readParameters] at h
  split at h
  · simp only [pure, Except.pure, Except.ok.injEq] at h
    rw [← h] at hp
    simp at hp
  · obtain ⟨read, hread, h⟩ := exists_ok_of_bind h
    split at h
    · simp at h
    · next hplaced =>
        simp only [pure, Except.pure, Except.ok.injEq] at h
        subst h
        have hfits := readSegments_fits hread hp
        rw [Nat.zero_add] at hfits
        exact ⟨hfits, last_of_variadic hplaced hp⟩

/-! ### Numbers of arguments -/

/-- The required parameters at the start of a list are counted by the smallest number. -/
theorem le_requiredCount_iff {ps : List Parameter} {k : Nat} (hk : k ≤ ps.length) :
    k ≤ requiredCount ps ↔ (ps.take k).all Parameter.isRequired = true := by
  unfold requiredCount
  induction ps generalizing k with
  | nil =>
      obtain rfl : k = 0 := by simpa using hk
      simp
  | cons p rest ih =>
      cases k with
      | zero => simp
      | succ k =>
          have hrest : k ≤ rest.length := by simpa using hk
          rw [List.takeWhile_cons, List.take_succ_cons, List.all_cons, Bool.and_eq_true]
          split
          · next hrequired =>
              rw [List.length_cons, Nat.add_le_add_iff_right, ih hrest]
              simp [hrequired]
          · next hrequired => simp [hrequired]

theorem requiredCount_le (ps : List Parameter) : requiredCount ps ≤ ps.length :=
  (List.takeWhile_sublist _).length_le

/-- There is no largest number of arguments exactly if the last parameter collects them. -/
theorem argLimit_eq_variadic_iff {ps : List Parameter} :
    argLimit ps = .variadic ↔ ∃ p, ps.getLast? = some p ∧ p.variadic = true := by
  unfold argLimit
  cases ps.getLast? with
  | none => simp
  | some last => cases hlast : last.variadic <;> simp [hlast]

/-- Otherwise the largest number of arguments is that of the parameters. -/
theorem argLimit_eq_count_iff {ps : List Parameter} {n : Nat} :
    argLimit ps = .count n ↔ argLimit ps ≠ .variadic ∧ n = ps.length := by
  have hcount : ArgLimit.count ps.length = .count n ↔ n = ps.length := by
    rw [ArgLimit.count.injEq, eq_comm]
  unfold argLimit
  cases ps.getLast? with
  | none => simpa using hcount
  | some last =>
      cases hlast : last.variadic with
      | true => simp [hlast]
      | false => simpa [hlast] using hcount

/-! ### Records -/

/-- What holds of the parameters of a record, and of its bounds on the number of arguments. -/
structure Routine.ListsParameters (r : Routine) : Prop where
  /-- Where the list could not be read, there are no parameters and no arguments. -/
  of_error : r.parseError.isSome = true →
    r.parameters = [] ∧ r.minArgs = 0 ∧ r.maxArgs = .count 0
  /-- Otherwise every parameter fits at its place, and only the last one may collect. -/
  fits : r.parseError = none → ∀ (i : Nat) (p : Parameter), r.parameters[i]? = some p →
    p.FitsAt i ∧ (p.variadic = true → i + 1 = r.parameters.length)
  /-- The smallest number is the length of the longest start of required parameters. -/
  le_minArgs_iff : ∀ k, k ≤ r.parameters.length →
    (k ≤ r.minArgs ↔ (r.parameters.take k).all Parameter.isRequired = true)
  minArgs_le : r.minArgs ≤ r.parameters.length
  /-- There is no largest number exactly if the last parameter collects. -/
  maxArgs_variadic_iff : r.maxArgs = .variadic ↔
    ∃ p, r.parameters.getLast? = some p ∧ p.variadic = true
  /-- Otherwise it is the number of the parameters, and not below the smallest one. -/
  maxArgs_count_iff : ∀ n, r.maxArgs = .count n ↔
    r.maxArgs ≠ .variadic ∧ n = r.parameters.length
  minArgs_le_count : ∀ n, r.maxArgs = .count n → r.minArgs ≤ n
  variadic_iff : r.variadic = true ↔ r.maxArgs = .variadic

/-- The parameters of a declaration are those that were read, or none after an error. -/
theorem Declaration.parameters_cases (d : Declaration) :
    (∃ e, d.error? = some e ∧ d.parameters = []) ∨
      (d.error? = none ∧ d.parameterList = .ok d.parameters) := by
  unfold error? parameters
  cases d.parameterList with
  | error e => exact Or.inl ⟨e, rfl, rfl⟩
  | ok ps => exact Or.inr ⟨rfl, rfl⟩

/-- The list of parameters of a declaration is read from cells of its text. -/
theorem exists_cells_of_mem_declarations {s : Source} {d : Declaration} (h : d ∈ declarations s) :
    ∃ cells, d.parameterList = readParameters cells := by
  obtain ⟨hread, -⟩ := mem_declarationsFrom h
  obtain ⟨listed, tail, -, -, rfl⟩ := declaration?_eq_some_iff.1 hread
  exact ⟨listed.cells, rfl⟩

/--
The parameters of every record fit at their places, or are missing after an error, and its bounds on
the number of arguments are those of its parameters.
-/
theorem listsParameters_of_mem_routinesOf (text : List Char) (version : Int32) :
    ∀ r ∈ routinesOf text version, r.ListsParameters := by
  intro r hr
  obtain ⟨d, hd, rfl⟩ := mem_assemble.1 hr
  obtain ⟨cells, hcells⟩ := exists_cells_of_mem_declarations hd
  have hcount {n : Nat} (h : argLimit d.parameters = .count n) : n = d.parameters.length :=
    (argLimit_eq_count_iff.1 h).2
  constructor
  · intro herror
    rcases d.parameters_cases with ⟨e, -, hnil⟩ | ⟨hnone, -⟩
    · simp only [recordOf, routineOf, hnil]
      decide
    · simp [recordOf, routineOf, hnone] at herror
  · intro hnone i p hp
    rcases d.parameters_cases with ⟨e, herror, -⟩ | ⟨-, hlist⟩
    · simp [recordOf, routineOf, herror] at hnone
    · rw [hcells] at hlist
      exact readParameters_spec hlist hp
  · intro k hk
    exact le_requiredCount_iff hk
  · exact requiredCount_le d.parameters
  · exact argLimit_eq_variadic_iff
  · intro n
    exact argLimit_eq_count_iff
  · intro n hn
    rw [hcount hn]
    exact requiredCount_le d.parameters
  · simp [recordOf, routineOf]

/-- A function with parameters of every kind, and one whose collector is not the last. -/
def twoLists : List Char :=
  "F(a, &b?, c : Int := 1, rest*) \x7b\n\x7d\nG(a*, b) \x7b\n\x7d".toList

/-- The first function takes one argument or more, and the list of the second cannot be read. -/
theorem twoLists_records :
    (routinesOf twoLists 0).map (fun r => (r.minArgs, r.maxArgs, r.parseError.isSome)) =
      [(1, .variadic, false), (0, .count 0, true)] := by
  rewrite [routinesOf, assemble_eq]
  decide +kernel

/-- There the first list ends with a collector, and the second function has no parameters. -/
theorem listsParameters_of_mem_routinesOf_twoLists :
    ∃ f ∈ routinesOf twoLists 0, ∃ g ∈ routinesOf twoLists 0, f.minArgs = 1 ∧
      (∃ p, f.parameters.getLast? = some p ∧ p.variadic = true) ∧
      g.parseError.isSome = true ∧ g.parameters = [] := by
  obtain ⟨f, rest, hrecords, hf, hrest⟩ := List.map_eq_cons_iff.1 twoLists_records
  obtain ⟨g, _, rfl, hg, -⟩ := List.map_eq_cons_iff.1 hrest
  simp only [Prod.mk.injEq] at hf hg
  have hfmem : f ∈ routinesOf twoLists 0 := by simp [hrecords]
  have hgmem : g ∈ routinesOf twoLists 0 := by simp [hrecords]
  have hflists := listsParameters_of_mem_routinesOf twoLists 0 f hfmem
  have hglists := listsParameters_of_mem_routinesOf twoLists 0 g hgmem
  exact ⟨f, hfmem, g, hgmem, hf.1, hflists.maxArgs_variadic_iff.1 hf.2.1, hg.2.2,
    (hglists.of_error hg.2.2).1⟩

end ScriptOutline
