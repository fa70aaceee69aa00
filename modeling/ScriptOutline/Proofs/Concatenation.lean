/-
**Texts one below the other.**

A text is closed off if its scan ends outside of a block comment, its braces and brackets close, and
its last line is a closing brace.  Whatever is written below such a text, the records of the two
together are those of the first followed by those of the second, which move down by the number of
lines of the first.

Main definitions:

* `modeAfter`, `depthAfterLines` — the mode and the number of open braces below lines;
* `ClosedOff` — a text that what is written below cannot reach into.

Main results:

* `readLines_append` — reading lines one below the other;
* `Source.isAtop_scan`, `Source.isBelow_scan` — how the two parts stand in the whole;
* `routinesOf_append` — **the records of the whole are those of its parts**.
-/

import ScriptOutline.Proofs.RecordOrder
import ScriptOutline.Proofs.TextLines
import ScriptOutline.Proofs.UpperRecords

set_option relaxedAutoImplicit false
set_option autoImplicit false

namespace ScriptOutline

/-! ### Reading two texts -/

/-- The mode in which the line below other lines is read. -/
def modeAfter (mode : Mode) : List (List Char) → Mode
  | [] => mode
  | line :: rest => modeAfter (mode.read line).2.afterBreak rest

/-- The number of braces that are open below lines. -/
def depthAfterLines (mode : Mode) (depth : Nat) : List (List Char) → Nat
  | [] => depth
  | line :: rest =>
    depthAfterLines (mode.read line).2.afterBreak (depthAfter depth (mode.read line).1) rest

/-- Only a block comment goes on below a line. -/
theorem modeAfter_eq_code {mode : Mode} {lines : List (List Char)} (hne : lines ≠ [])
    (h : modeAfter mode lines ≠ .blockComment) : modeAfter mode lines = .code := by
  induction lines generalizing mode with
  | nil => exact absurd rfl hne
  | cons line rest ih =>
      cases rest with
      | nil =>
          simp only [modeAfter] at h ⊢
          cases hmode : (mode.read line).2 with
          | blockComment =>
              rw [hmode] at h
              exact absurd rfl h
          | code => rfl
          | lineComment => rfl
          | opening => rfl
          | closing => rfl
          | literal quote => rfl
          | escaped quote => rfl
      | cons line' rest => exact ih (List.cons_ne_nil line' rest) h

theorem readLines_append (mode : Mode) (depth : Nat) (xs ys : List (List Char)) :
    readLines mode depth (xs ++ ys) =
      readLines mode depth xs ++ readLines (modeAfter mode xs) (depthAfterLines mode depth xs) ys := by
  induction xs generalizing mode depth with
  | nil => rfl
  | cons line rest ih =>
      simp only [List.cons_append, readLines, modeAfter, depthAfterLines, ih]

/-! ### Open braces -/

theorem depthAfter_eq_length (pending : List Position) (line column : Nat) (cells : List Cell) :
    depthAfter pending.length cells =
      (pendingAfter pending (spotsOfCells line column cells)).length := by
  induction cells generalizing pending column with
  | nil => rfl
  | cons c rest ih =>
      simp only [depthAfter, List.foldl_cons, spotsOfCells, pendingAfter, depthStep] at ih ⊢
      split
      · exact ih (⟨line, column⟩ :: pending) (column + 1)
      · split
        · rw [← List.length_tail]
          exact ih pending.tail (column + 1)
        · exact ih pending (column + 1)

/-- A line break is no brace. -/
theorem pendingAfter_breakSpot (pending : List Position) (l : Line) (n : Nat) :
    pendingAfter pending [l.breakSpot n] = pending := by
  have hopen : (l.breakSpot n).cell.isCodeChar '{' = false := by
    simp [Line.breakSpot, Cell.isCodeChar]
  have hclose : (l.breakSpot n).cell.isCodeChar '}' = false := by
    simp [Line.breakSpot, Cell.isCodeChar]
  simp only [pendingAfter, hopen, hclose, Bool.false_eq_true, if_false]

/-- As many braces are open below lines as are pending after them. -/
theorem depthAfterLines_eq_length (pending : List Position) (mode : Mode) (n : Nat)
    (lines : List (List Char)) :
    depthAfterLines mode pending.length lines =
      (pendingAfter pending (spotsOfLines n (readLines mode pending.length lines))).length := by
  induction lines generalizing pending mode n with
  | nil => rfl
  | cons line rest ih =>
      simp only [depthAfterLines, readLines, spotsOfLines, Line.spotsFrom_eq, List.drop_zero,
        pendingAfter_append, pendingAfter_breakSpot]
      rw [depthAfter_eq_length pending n 0]
      exact ih _ _ (n + 1)

/-! ### Brace pairs further down -/

theorem pairBraces_down (k : Nat) (pending : List Position) (spots : List Spot) :
    pairBraces (pending.map (Position.down k)) (spots.map (Spot.down k)) =
      (pairBraces pending spots).map fun q => (q.1.down k, q.2.down k) := by
  induction spots generalizing pending with
  | nil => rfl
  | cons x rest ih =>
      have hcell : (x.down k).cell = x.cell := rfl
      simp only [List.map_cons, pairBraces, hcell]
      split
      · exact ih (x.position :: pending)
      · split
        · cases pending with
          | nil => exact ih []
          | cons opening pending =>
              exact congrArg (((opening.down k), (x.position.down k)) :: ·) (ih pending)
        · exact ih pending

theorem lookup_down (k : Nat) (p : Position) (pairs : List (Position × Position)) :
    (pairs.map fun q => (q.1.down k, q.2.down k)).lookup (p.down k) =
      (pairs.lookup p).map (Position.down k) :=
  lookup_map_of_injective (fun _ _ => Position.down_inj.1) (Position.down k) pairs p

/-! ### Closed texts -/

/-- A text that what is written below cannot reach into. -/
structure ClosedOff (text : List Char) : Prop where
  /-- The scan ends outside of a block comment. -/
  mode : modeAfter .code (linesOf text) ≠ .blockComment
  /-- Brackets close, and the last line is a closing brace. -/
  source : (Source.scan text).IsClosed

theorem lineCount_scan (text : List Char) : (Source.scan text).lineCount = (linesOf text).length :=
  readLines_length .code 0 (linesOf text)

namespace ClosedOff

variable {a : List Char} (ha : ClosedOff a) (b : List Char)

include ha

/-- The lines of the whole are those of its parts. -/
theorem lines_scan_append : (Source.scan (a ++ '\n' :: b)).lines =
    (Source.scan a).lines ++ (Source.scan b).lines := by
  -- the second text is read as if it stood alone: no brace is open above it, and no comment
  have hpending := Source.pendingAfter_eq_nil (Source.isPaired_scan a) ha.source.braces
  have hdepth : depthAfterLines .code 0 (linesOf a) = 0 := by
    have hlength := depthAfterLines_eq_length [] .code 0 (linesOf a)
    rw [show spotsOfLines 0 (readLines .code ([] : List Position).length (linesOf a)) =
      (Source.scan a).spots from rfl, hpending] at hlength
    exact hlength
  have hmode := modeAfter_eq_code (linesOf_ne_nil a) ha.mode
  simp only [Source.scan]
  rw [linesOf_append, readLines_append, hmode, hdepth]

/-- The brace pairs of the whole are those of its parts. -/
theorem pairs_scan_append : (Source.scan (a ++ '\n' :: b)).bracePairs =
    (Source.scan a).bracePairs ++ (Source.scan b).bracePairs.map fun q =>
      (q.1.down (linesOf a).length, q.2.down (linesOf a).length) := by
  have hpending := Source.pendingAfter_eq_nil (Source.isPaired_scan a) ha.source.braces
  have hspots : (Source.scan (a ++ '\n' :: b)).spots =
      (Source.scan a).spots ++ (Source.scan b).spots.map (Spot.down (linesOf a).length) := by
    rw [Source.spots, ha.lines_scan_append b, spotsOfLines_append, spotsOfLines_down,
      ← lineCount_scan]
    rfl
  rw [Source.isPaired_scan, Source.isPaired_scan, Source.isPaired_scan, hspots,
    pairBraces_append, hpending]
  exact congrArg _ (pairBraces_down (linesOf a).length [] (Source.scan b).spots)

/-- The first text stands above the other in the whole. -/
theorem isAtop_scan : (Source.scan a).IsAtop (Source.scan b).lines (Source.scan (a ++ '\n' :: b)) where
  closed := ha.source
  read := fun _ _ hl => Source.isRead_scan hl
  paired := Source.isPaired_scan a
  lines := ha.lines_scan_append b
  braces := by
    intro p hp
    obtain ⟨c, hc⟩ := Option.isSome_iff_exists.1
      (ha.source.braces _ hp (Cell.isCodeChar_iff.2 rfl))
    rw [Source.matchingBrace?] at hc
    rw [Source.matchingBrace?, Source.matchingBrace?, ha.pairs_scan_append, List.lookup_append, hc]
    rfl

/-- The second text stands below the other in the whole. -/
theorem isBelow_scan :
    (Source.scan b).IsBelow (Source.scan a).lines (Source.scan (a ++ '\n' :: b)) where
  lines := ha.lines_scan_append b
  nonempty := by
    intro hnil
    have hlength := lineCount_scan b
    rw [Source.lineCount, hnil] at hlength
    exact linesOf_ne_nil b (List.eq_nil_of_length_eq_zero hlength.symm)
  braces := by
    intro p
    have hk : (Source.scan a).lines.length = (linesOf a).length := lineCount_scan a
    -- a brace of the second text opens no pair of the first
    have hnone : (Source.scan a).bracePairs.lookup (p.down (linesOf a).length) = none := by
      rw [List.lookup_eq_none_iff]
      intro q hq
      have hpair : q ∈ pairBraces [] (Source.scan a).spots := hq
      obtain ⟨hopen, -⟩ := mem_pairBraces hpair
      rcases hopen with hnil | hopen
      · simp at hnil
      · have hlt := (Source.reaches_of_mem_spots hopen).line_lt
        rw [bne_iff_ne]
        intro heq
        rw [← heq, Source.lineCount, hk] at hlt
        simp only [Position.down] at hlt
        omega
    rw [Source.matchingBrace?, Source.matchingBrace?, ha.pairs_scan_append, List.lookup_append, hk,
      hnone, Option.none_or, lookup_down]

/-! ### The records of the whole -/

theorem declarations_scan_append : declarations (Source.scan (a ++ '\n' :: b)) =
    declarations (Source.scan a) ++
      (declarations (Source.scan b)).map (Declaration.down (linesOf a).length) := by
  have hbelow := (ha.isBelow_scan b).declarationsFrom_down 0 0 (Source.scan b).lines
  rw [(ha.isAtop_scan b).declarations_eq, Source.lineCount, ← lineCount_scan]
  rw [Nat.zero_add] at hbelow
  rw [hbelow]
  rfl

theorem declaredSpans_scan_append : declaredSpans (Source.scan (a ++ '\n' :: b)) =
    declaredSpans (Source.scan a) ++
      (declaredSpans (Source.scan b)).map (Span.down (linesOf a).length) := by
  simp only [declaredSpans, ha.declarations_scan_append, List.map_append, List.map_map]
  congr 1
  · apply List.map_congr_left
    intro d hd
    exact ((ha.isAtop_scan b).span_eq hd).1
  · apply List.map_congr_left
    intro d _
    have hspan := (ha.isBelow_scan b).span_down d
    rw [show (Source.scan a).lines.length = (linesOf a).length from lineCount_scan a] at hspan
    exact hspan

theorem classBlocks_scan_append : classBlocks (Source.scan (a ++ '\n' :: b)) =
    classBlocks (Source.scan a) ++
      (classBlocks (Source.scan b)).map (ClassBlock.down (linesOf a).length) := by
  rw [(ha.isAtop_scan b).classBlocks_eq, List.zipIdx_eq_map_add, List.filterMap_map, classBlocks,
    classBlocks, List.map_filterMap]
  refine congrArg _ (List.filterMap_congr ?_)
  rintro ⟨l, n⟩ -
  have hclass := (ha.isBelow_scan b).classBlock?_down n l
  rw [show (Source.scan a).lines.length = (linesOf a).length from lineCount_scan a] at hclass
  simp only [Function.comp_apply, lineCount_scan]
  rw [Nat.add_comm]
  exact hclass

/-- The line above the second text is no comment. -/
theorem last_not_commentOnly :
    (Source.scan a).lines.getLast?.any Line.isCommentOnly = false := by
  obtain ⟨l, hl, hink⟩ := Option.map_eq_some_iff.1 ha.source.last
  rw [hl, Option.any_some]
  have hmem : (⟨'}', .code⟩ : Cell) ∈ l.ink := by simp [hink]
  have hall : (l.cells.all fun c => c.isComment || isBlank c.char) = false := by
    rw [List.all_eq_false]
    exact ⟨_, (List.mem_filter.1 hmem).1, by decide⟩
  rw [Line.isCommentOnly, hall, Bool.and_false]

end ClosedOff

/--
The records of a closed text and of any text below it are those of the first, followed by those of
the second, which move down by the number of lines of the first.
-/
theorem routinesOf_append {a : List Char} (ha : ClosedOff a) (b : List Char) (version : Int32) :
    routinesOf (a ++ '\n' :: b) version =
      routinesOf a version ++ (routinesOf b version).map (Routine.down (linesOf a).length) := by
  have hk : (Source.scan a).lines.length = (linesOf a).length := lineCount_scan a
  simp only [routinesOf, assemble_eq, ha.declarations_scan_append, List.map_append, List.map_map]
  congr 1
  · apply List.map_congr_left
    intro d hd
    have hupper := (ha.isAtop_scan b).routineOf_eq hd version (declaredSpans (Source.scan a))
      (declaredSpans (Source.scan b)) (classBlocks (Source.scan a)) (classBlocks (Source.scan b))
    rw [lineCount_scan] at hupper
    rw [recordOf, ha.declaredSpans_scan_append, ha.classBlocks_scan_append, hupper]
    rfl
  · apply List.map_congr_left
    intro d _
    have hspans : ∀ u ∈ declaredSpans (Source.scan a), u.IsAbove (Source.scan a).lines.length := by
      intro u hu
      obtain ⟨e, he, rfl⟩ := List.mem_map.1 hu
      exact ((ha.isAtop_scan b).span_eq he).2.2.1
    have hlower := @Source.IsBelow.routineOf_down _ _ _ (ha.isBelow_scan b) _
      (declaredSpans (Source.scan b)) _ (classBlocks (Source.scan b)) hspans
      (fun c hc => (ha.isAtop_scan b).classBlocks_above hc) ha.last_not_commentOnly version d
    rw [hk] at hlower
    rw [Function.comp_apply, recordOf, ha.declaredSpans_scan_append, ha.classBlocks_scan_append,
      hlower]
    rfl

/-- A function with a comment, which is closed off. -/
def commentedFunction : List Char :=
  "; adds\nF(a, b) \x7b\n  return a + b\n\x7d".toList

/-- A function whose expression is still being typed, behind a stray brace. -/
def unfinishedFunction : List Char :=
  "\x7d\nG() => (x := 1".toList

theorem closedOff_commentedFunction : ClosedOff commentedFunction where
  mode := by decide +kernel
  source :=
    { braces := by decide +kernel
      brackets := by decide +kernel
      last := by decide +kernel }

/-- The stray brace and the open parenthesis change nothing above. -/
theorem routinesOf_append_unfinished : ClosedOff commentedFunction ∧
    (routinesOf (commentedFunction ++ '\n' :: unfinishedFunction) 7).map
        (fun r => (r.name, r.span, r.documentation, r.vars.toList.map (·.position))) =
      [("F", ⟨⟨1, 0⟩, ⟨3, 1⟩⟩, some "adds", []), ("G", ⟨⟨5, 0⟩, ⟨5, 14⟩⟩, none, [⟨5, 8⟩])] := by
  refine ⟨closedOff_commentedFunction, ?_⟩
  rewrite [routinesOf_append closedOff_commentedFunction, List.map_append, routinesOf, routinesOf,
    assemble_eq, assemble_eq]
  decide +kernel

end ScriptOutline
