/-
**The parts of a segment, put together and taken apart.**

A segment of a list of parameters is cut at the first `:=`, or at the first plain equals sign where
there is none; markers are taken off its end, and blanks off both ends.  Each of these is undone by
putting the parts together again, as long as no part holds a mark of its own.

Main results:

* `splitAssign?_eq_none_iff`, `splitAssign?_eq_some`, `splitAssign?_append` — cutting at `:=`;
* `splitEquals?_append_iff`, `splitEquals?_plain_append_iff` — where no plain equals sign is found;
* `stripMarkers_spec`, `stripMarkers_of_tight`, `stripMarkers_append_marker` — markers at the end of
  a text;
* `trim_of_isTrimmed`, `exists_blanks_of_last` — texts without blanks at one end or both;
* `Parameter.read_eq_ok_iff` — a parameter is read just if each of its parts is.
-/

import ScriptOutline.Proofs.ParameterLists
import ScriptOutline.Proofs.RedactedParameters
import ScriptOutline.Proofs.WordsAndBlanks

set_option relaxedAutoImplicit false
set_option autoImplicit false

namespace ScriptOutline

/-! ### Marks of default values -/

theorem mark_infix_cons {c : Char} {cs : List Char} :
    [':', '='] <:+: c :: cs ↔ c = ':' ∧ cs.head? = some '=' ∨ [':', '='] <:+: cs := by
  rw [List.infix_cons_iff]
  refine or_congr_left ?_
  cases cs with
  | nil => simp
  | cons d cs => simp [List.cons_prefix_cons, eq_comm]

/-- A text is not cut just if it has no mark. -/
theorem splitAssign?_eq_none_iff {cs : List Char} :
    splitAssign? cs = none ↔ ¬[':', '='] <:+: cs := by
  induction cs with
  | nil => simp [splitAssign?]
  | cons c cs ih =>
      rw [mark_infix_cons]
      cases cs with
      | nil => simp [splitAssign?]
      | cons d rest =>
          by_cases hmark : c = ':' ∧ d = '='
          · simp [splitAssign?, hmark]
          · rw [List.head?_cons, Option.some.injEq, or_iff_right hmark, ← ih]
            simp [splitAssign?, hmark]

/-- A text is cut at its first mark. -/
theorem splitAssign?_eq_some {cs before after : List Char}
    (h : splitAssign? cs = some (before, after)) :
    cs = before ++ ':' :: '=' :: after ∧ ¬[':', '='] <:+: before := by
  induction cs generalizing before with
  | nil => simp [splitAssign?] at h
  | cons c cs ih =>
      cases cs with
      | nil => simp [splitAssign?] at h
      | cons d rest =>
          simp only [splitAssign?, Bool.and_eq_true, decide_eq_true_eq] at h
          split at h
          · next hmark =>
              simp only [Option.some.injEq, Prod.mk.injEq] at h
              rw [← h.1, ← h.2, hmark.1, hmark.2]
              exact ⟨rfl, by simp⟩
          · next hmark =>
              obtain ⟨⟨inner, rest'⟩, hrest, heq⟩ := Option.map_eq_some_iff.1 h
              obtain ⟨rfl, rfl⟩ := Prod.mk.inj heq
              obtain ⟨hcs, hinner⟩ := ih hrest
              refine ⟨by rw [hcs]; rfl, ?_⟩
              rw [mark_infix_cons, or_iff_left hinner]
              rintro ⟨hc, hhead⟩
              obtain ⟨tail, rfl⟩ := List.head?_eq_some_iff.1 hhead
              exact hmark ⟨hc, (List.cons.inj hcs).1⟩

/-- What is put together at a mark is cut there. -/
theorem splitAssign?_append {xs : List Char} (h : ¬[':', '='] <:+: xs) (rest : List Char) :
    splitAssign? (xs ++ ':' :: '=' :: rest) = some (xs, rest) := by
  induction xs with
  | nil => rfl
  | cons c xs ih =>
      rw [mark_infix_cons, not_or] at h
      have hrest := ih h.2
      cases xs with
      | nil => simp [splitAssign?]
      | cons d xs =>
          have hmark : ¬(c = ':' ∧ d = '=') := fun hboth => h.1 ⟨hboth.1, by rw [hboth.2]; rfl⟩
          simp only [List.cons_append] at hrest ⊢
          simp [splitAssign?, hmark, hrest]

/-- A text without an equals sign adds no mark at the end. -/
theorem not_mark_infix_append {xs ys : List Char} (hxs : ¬[':', '='] <:+: xs) (hys : '=' ∉ ys) :
    ¬[':', '='] <:+: xs ++ ys := by
  induction xs with
  | nil => exact fun hmark => hys (hmark.subset (by simp))
  | cons c xs ih =>
      rw [mark_infix_cons, not_or] at hxs
      rw [List.cons_append, mark_infix_cons, not_or]
      refine ⟨?_, ih hxs.2⟩
      rintro ⟨hc, hhead⟩
      cases xs with
      | nil =>
          obtain ⟨tail, rfl⟩ := List.head?_eq_some_iff.1 hhead
          exact hys List.mem_cons_self
      | cons d xs => exact hxs.1 ⟨hc, hhead⟩

/-- A text without a colon adds no mark at the start. -/
theorem not_mark_infix_append_left {xs ys : List Char} (hxs : ':' ∉ xs)
    (hys : ¬[':', '='] <:+: ys) : ¬[':', '='] <:+: xs ++ ys := by
  induction xs with
  | nil => exact hys
  | cons c xs ih =>
      rw [List.mem_cons, not_or] at hxs
      rw [List.cons_append, mark_infix_cons, not_or]
      exact ⟨fun hboth => hxs.1 hboth.1.symm, ih hxs.2⟩

/-! ### Plain equals signs -/

theorem splitEquals?_of_not_mem {cs : List Char} (h : '=' ∉ cs) (before : Option Char) :
    splitEquals? before cs = none := by
  induction cs generalizing before with
  | nil => rfl
  | cons c cs ih =>
      rw [List.mem_cons, not_or] at h
      have hc : c ≠ '=' := fun heq => h.1 heq.symm
      simp [splitEquals?, hc, ih h.2]

/-- What follows a text without signs of its own plays no part in how the text is cut. -/
theorem splitEquals?_append_iff {xs ys : List Char} (hys : ∀ c ∈ ys, c ≠ '=' ∧ c ≠ '>')
    (before : Option Char) :
    splitEquals? before (xs ++ ys) = none ↔ splitEquals? before xs = none := by
  induction xs generalizing before with
  | nil =>
      have hmem : '=' ∉ ys := fun hmem => (hys '=' hmem).1 rfl
      simp [splitEquals?, splitEquals?_of_not_mem hmem]
  | cons c xs ih =>
      have hcompound : isCompound before (xs ++ ys).head? = isCompound before xs.head? := by
        cases xs with
        | cons d xs => rfl
        | nil =>
            cases ys with
            | nil => rfl
            | cons d ys =>
                obtain ⟨hequals, hgreater⟩ := hys d List.mem_cons_self
                simp [isCompound, hequals, hgreater]
      simp only [List.cons_append, splitEquals?, hcompound]
      split
      · simp
      · split
        · simp
        · rw [Option.map_eq_none_iff, Option.map_eq_none_iff, ih]

/-- A text without equals signs and quotes in front only matters by its last character. -/
theorem splitEquals?_plain_append_iff {xs : List Char} (hequals : '=' ∉ xs) (hplain : Plain xs)
    (ys : List Char) (before : Option Char) :
    splitEquals? before (xs ++ ys) = none ↔ splitEquals? (xs.getLast?.or before) ys = none := by
  induction xs generalizing before with
  | nil => rfl
  | cons c xs ih =>
      rw [List.mem_cons, not_or] at hequals
      obtain ⟨hc, hrest⟩ := List.forall_mem_cons.1 hplain
      have hne : c ≠ '=' := fun heq => hequals.1 heq.symm
      have hquote : ¬(c = '"' ∨ c = '\'') := by
        simpa [isQuoteMark] using hc
      rw [getLast?_cons_or, ← ih hequals.2 hrest]
      simp [splitEquals?, hquote, hne]

/-- All blanks count alike in front of an equals sign. -/
theorem splitEquals?_of_isBlank {b : Char} (hb : isBlank b = true) (cs : List Char) :
    splitEquals? (some b) cs = splitEquals? (some ' ') cs := by
  have hne {d : Char} (hd : isBlank d = false) : b ≠ d := by
    rintro rfl
    rw [hb] at hd
    exact Bool.noConfusion hd
  cases cs with
  | nil => rfl
  | cons c rest =>
      simp [splitEquals?, isCompound, hne (by decide : isBlank '!' = false),
        hne (by decide : isBlank '<' = false), hne (by decide : isBlank '>' = false),
        hne (by decide : isBlank '=' = false), hne (by decide : isBlank ':' = false)]

/-- Where no equals sign comes first, what comes before does not matter. -/
theorem splitEquals?_of_head {cs : List Char} (h : ∀ c ∈ cs.head?, c ≠ '=')
    (before before' : Option Char) : splitEquals? before cs = splitEquals? before' cs := by
  cases cs with
  | nil => rfl
  | cons c rest => simp [splitEquals?, h c rfl]

/-! ### Markers -/

theorem stripBackwards_of_tight {cs : List Char} (h : ∀ c ∈ cs.head?, isTight c = true) :
    stripBackwards cs = (cs, Markers.none) := by
  cases cs with
  | nil => rfl
  | cons c cs => rw [stripBackwards_cons, if_pos (h c rfl)]

/-- Nothing is taken off a text that ends in a tight character. -/
theorem stripMarkers_of_tight {cs : List Char} (h : ∀ c ∈ cs.getLast?, isTight c = true) :
    stripMarkers cs = (cs, Markers.none) := by
  rw [← List.head?_reverse] at h
  have hback := stripBackwards_of_tight h
  simp [stripMarkers, hback]

/-- One marker is taken off such a text. -/
theorem stripMarkers_append_marker {cs : List Char} (h : ∀ c ∈ cs.getLast?, isTight c = true)
    {marker : Char} (hmarker : isTight marker = false) :
    stripMarkers (cs ++ [marker]) = (cs, ⟨marker = '*', marker = '?'⟩) := by
  rw [← List.head?_reverse] at h
  have hback := stripBackwards_of_tight h
  simp [stripMarkers, stripBackwards_cons, hback, hmarker, Markers.union, Markers.none]

/-- Only blanks and markers are taken off, and what is left ends in a tight character. -/
theorem stripMarkers_spec (cs : List Char) :
    ∃ tail, cs = (stripMarkers cs).1 ++ tail ∧ (∀ c ∈ tail, isTight c = false) ∧
      ∀ c ∈ (stripMarkers cs).1.getLast?, isTight c = true := by
  have hback (back : List Char) : ∃ front, back = front ++ (stripBackwards back).1 ∧
      (∀ c ∈ front, isTight c = false) ∧
      ∀ c ∈ (stripBackwards back).1.head?, isTight c = true := by
    induction back with
    | nil => exact ⟨[], rfl, by simp, by simp [stripBackwards]⟩
    | cons c back ih =>
        rw [stripBackwards_cons]
        split
        · next hc =>
            refine ⟨[], rfl, by simp, ?_⟩
            rintro d ⟨⟩
            exact hc
        · next hc =>
            obtain ⟨front, hfront, hloose, hhead⟩ := ih
            refine ⟨c :: front, by rw [List.cons_append, ← hfront], ?_, hhead⟩
            exact List.forall_mem_cons.2 ⟨by simpa using hc, hloose⟩
  obtain ⟨front, hfront, hloose, hhead⟩ := hback cs.reverse
  refine ⟨front.reverse, ?_, ?_, ?_⟩
  · have hcs := congrArg List.reverse hfront
    rwa [List.reverse_reverse, List.reverse_append] at hcs
  · intro c hc
    exact hloose c (List.mem_reverse.1 hc)
  · simp only [stripMarkers, List.getLast?_reverse]
    exact hhead

/-- Only an ampersand and blanks are taken off. -/
theorem stripReference_spec (cs : List Char) :
    ∃ front, cs = front ++ (stripReference cs).1 ∧ ∀ c ∈ front, c = '&' ∨ isBlank c = true := by
  unfold stripReference
  split
  · next rest =>
      obtain ⟨blanks, hrest, hblanks⟩ := trimStart_spec rest
      refine ⟨'&' :: blanks, by rw [List.cons_append, ← hrest], ?_⟩
      intro c hc
      exact (List.mem_cons.1 hc).imp id (hblanks c)
  · exact ⟨[], rfl, by simp⟩

/-! ### Blanks at the ends -/

theorem trimEnd_of_last {cs : List Char} (h : ∀ c ∈ cs.getLast?, isBlank c = false) :
    trimEnd cs = cs := by
  rcases List.eq_nil_or_concat cs with rfl | ⟨init, c, rfl⟩
  · rfl
  · rw [List.concat_eq_append] at h ⊢
    rw [trimEnd_append_singleton, h c (by simp)]
    rfl

/-- Blanks are taken off behind a character that is none, and not before it. -/
theorem trimEnd_append {front : List Char} (h : ∀ c ∈ front.getLast?, isBlank c = false)
    (tail : List Char) : trimEnd (front ++ tail) = front ++ trimEnd tail := by
  induction tail using List.reverseRecOn with
  | nil => rw [List.append_nil, trimEnd_of_last h, trimEnd_eq_rdropWhile, List.rdropWhile_nil,
      List.append_nil]
  | append_singleton tail c ih =>
      rw [← List.append_assoc, trimEnd_append_singleton, trimEnd_append_singleton, ih]
      split <;> simp

theorem trimEnd_eq_nil_iff {cs : List Char} : trimEnd cs = [] ↔ ∀ c ∈ cs, isBlank c = true := by
  rw [trimEnd_eq_rdropWhile, List.rdropWhile_eq_nil_iff]

/-- Nothing is taken off a text without blanks at its ends. -/
theorem trim_of_isTrimmed {cs : List Char} (h : IsTrimmed cs) : trim cs = cs := by
  rw [trim, trimStart_of_head h.1, trimEnd_of_last h.2]

/-- A space in front is taken off. -/
theorem trim_space_cons (cs : List Char) : trim (' ' :: cs) = trim cs :=
  congrArg trimEnd (trimStart_blanks isBlank_of_mem_space cs)

/-- Only the space is taken off a text without blanks at its ends that a space follows. -/
theorem trim_append_space {cs : List Char} (h : IsTrimmed cs) : trim (cs ++ [' ']) = cs := by
  cases cs with
  | nil => decide
  | cons c rest =>
      have hstart : trimStart (c :: rest ++ [' ']) = c :: rest ++ [' '] := trimStart_of_head h.1
      rw [trim, hstart, trimEnd_append_singleton, if_pos (by decide), trimEnd_of_last h.2]

/-- Only leading blanks are taken off a text that ends in no blank. -/
theorem exists_blanks_of_last {cs : List Char} (h : ∀ c ∈ cs.getLast?, isBlank c = false) :
    ∃ blanks, cs = blanks ++ trim cs ∧ ∀ c ∈ blanks, isBlank c = true := by
  obtain ⟨blanks, hcs, hblanks⟩ := trimStart_spec cs
  refine ⟨blanks, ?_, hblanks⟩
  have hlast : ∀ c ∈ (trimStart cs).getLast?, isBlank c = false := by
    intro c hc
    refine h c ?_
    rw [hcs, List.getLast?_append, hc]
    rfl
  rw [trim, trimEnd_of_last hlast]
  exact hcs

/-- Every character of a text is a blank or left when the blanks at its ends are taken off. -/
theorem isBlank_or_mem_trim {c : Char} {cs : List Char} (h : c ∈ cs) :
    isBlank c = true ∨ c ∈ trim cs := by
  cases hc : isBlank c with
  | true => exact Or.inl rfl
  | false => exact Or.inr (mem_trim h hc)

/-! ### Parts of a parameter -/

/-- A parameter is read just if each of its parts is. -/
theorem Parameter.read_eq_ok_iff {position : Nat} {segment : List Char} {p : Parameter} :
    Parameter.read position segment = .ok p ↔
      trim segment ≠ [] ∧ ∃ front text declared reference name hint markers read value,
        splitDefault (trim segment) = (front, text) ∧
        stripReference (trim front) = (declared, reference) ∧
        readDeclared position declared = .ok (name, hint, markers) ∧
        readName name markers.variadic = .ok read ∧
        readDefault read markers.variadic text = .ok value ∧
        p = ⟨read, reference, markers.optional || value.isSome, value, hint.map String.ofList,
          markers.variadic, position⟩ := by
  constructor
  · intro h
    simp only [Parameter.read] at h
    split at h
    · simp at h
    · next hne =>
        obtain ⟨⟨name, hint, markers⟩, hdeclared, h⟩ := exists_ok_of_bind h
        obtain ⟨read, hname, h⟩ := exists_ok_of_bind h
        obtain ⟨value, hvalue, h⟩ := exists_ok_of_bind h
        simp only [pure, Except.pure, Except.ok.injEq] at h
        exact ⟨by simpa using hne, _, _, _, _, name, hint, markers, read, value, rfl, rfl,
          hdeclared, hname, hvalue, h.symm⟩
  · rintro ⟨hne, front, text, declared, reference, name, hint, markers, read, value, hsplit,
      hreference, hdeclared, hname, hvalue, rfl⟩
    have hempty : (trim segment).isEmpty = false := List.isEmpty_eq_false_iff.2 hne
    simp [Parameter.read, hempty, hsplit, hreference, hdeclared, hname, hvalue, bind, Except.bind,
      pure, Except.pure]

end ScriptOutline
