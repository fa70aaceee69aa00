/-
**Two ways to cut a line at its commas.**

A list of parameters is cut by its cells, where the region of a comma or a bracket tells whether it
is code.  A declaration of variables is cut by its text alone, in which comments and the insides of
literals are blanked out.  Both cut a line at the same places: at the commas of the code to which no
bracket is open, where a stray closing bracket leaves none open.  Nothing but these commas is lost.

The text is cut by bytes of UTF-8, and its columns count characters; both say where a piece starts.

Main definitions:

* `cutsFrom` — the places between pieces;
* `Line.CutsAt` — the places where a line is to be cut;
* `Line.CutsInto` — the pieces of a line;
* `byteStarts` — the places of the pieces of a text in its bytes;
* `StandsBehind` — a piece at its place in the bytes and at its column.

Main results:

* `piecesFrom_masked` — the pieces of the text are those of the cells, blanked out;
* `intercalate_segmentsFrom`, `mem_cutsFrom_segmentsFrom` — what is lost, and where the cuts are;
* `forall₂_byteStarts` — every piece of a text stands at its place in the bytes;
* `cuts_agree` — **both ways cut every line at the same commas, and lose nothing else**.
-/

import ScriptOutline.Parameter.Reader
import ScriptOutline.Proofs.AssignmentChains
import ScriptOutline.Proofs.BracePairs
import ScriptOutline.Text.Utf8

set_option relaxedAutoImplicit false
set_option autoImplicit false

namespace ScriptOutline

/-! ### Pieces of the cells and of the text -/

theorem segmentsFrom_ne_nil (depth : Nat) (cells : List Cell) : segmentsFrom depth cells ≠ [] := by
  cases cells with
  | nil => simp [segmentsFrom]
  | cons c rest =>
      simp only [segmentsFrom]
      split
      · simp
      · split
        · simp
        · simp

theorem segmentsFrom_comma (rest : List Cell) :
    segmentsFrom 0 (⟨',', .code⟩ :: rest) = [] :: segmentsFrom 0 rest := by
  rw [segmentsFrom, if_pos (by decide)]

/-- A cell that does not end a piece comes before the first piece of what follows it. -/
theorem segmentsFrom_cons {depth : Nat} {c : Cell} (h : ¬(depth = 0 ∧ c = ⟨',', .code⟩))
    (rest : List Cell) :
    ∃ piece pieces, segmentsFrom (bracketStep depth c) rest = piece :: pieces ∧
      segmentsFrom depth (c :: rest) = (c :: piece) :: pieces := by
  obtain ⟨piece, pieces, hrest⟩ :=
    List.exists_cons_of_ne_nil (segmentsFrom_ne_nil (bracketStep depth c) rest)
  refine ⟨piece, pieces, hrest, ?_⟩
  rw [segmentsFrom, hrest, if_neg]
  rwa [Bool.and_eq_true, decide_eq_true_eq, Cell.isCodeChar_iff]

/-- What is blanked out is no comma and no bracket. -/
theorem Cell.masked_of_not_code {c : Cell} (h : c.isCode = false) :
    c.masked ≠ ',' ∧ ∀ depth, charStep depth c.masked = depth := by
  obtain ⟨char, region⟩ := c
  refine charStep_of_class (p := fun d => d = ' ' || d = '"' || d = '\'') (by decide) ?_
  cases region with
  | code => simp [isCode] at h
  | lineComment => simp [masked]
  | blockComment => simp [masked]
  | literal quote =>
      by_cases hquote : char = quote.char
      · cases quote <;> simp [masked, hquote, Quote.char]
      · simp [masked, hquote]

/-- The text shows a comma just where the code has one. -/
theorem Cell.masked_eq_comma_iff {c : Cell} : c.masked = ',' ↔ c = ⟨',', .code⟩ := by
  constructor
  · intro h
    cases hcode : c.isCode with
    | false => exact absurd h (masked_of_not_code hcode).1
    | true =>
        obtain ⟨char, region⟩ := c
        obtain rfl : region = .code := by simpa [isCode] using hcode
        rw [show char = ',' from h]
  · rintro rfl
    rfl

/-- The brackets of the text are counted as those of the cells are. -/
theorem charStep_masked (depth : Nat) (c : Cell) : charStep depth c.masked = bracketStep depth c := by
  cases hcode : c.isCode with
  | false =>
      rw [(Cell.masked_of_not_code hcode).2]
      simp [bracketStep, Cell.isOpener, Cell.isCloser, hcode]
  | true =>
      obtain ⟨char, region⟩ := c
      obtain rfl : region = .code := by simpa [Cell.isCode] using hcode
      simp only [charStep, bracketStep, Cell.isOpener, Cell.isCloser, hcode, Cell.masked,
        Bool.true_and]
      rfl

/-- The pieces of the text are those of the cells, blanked out. -/
theorem piecesFrom_masked (depth : Nat) (cells : List Cell) :
    piecesFrom depth (cells.map Cell.masked) =
      (segmentsFrom depth cells).map (List.map Cell.masked) := by
  induction cells generalizing depth with
  | nil => rfl
  | cons c rest ih =>
      by_cases hcomma : depth = 0 ∧ c = ⟨',', .code⟩
      · obtain ⟨rfl, rfl⟩ := hcomma
        rw [segmentsFrom_comma, List.map_cons, List.map_cons, ← ih]
        exact piecesFrom_comma _
      · obtain ⟨piece, pieces, hrest, hcons⟩ := segmentsFrom_cons hcomma rest
        have htext : ¬(depth = 0 ∧ c.masked = ',') := by rwa [Cell.masked_eq_comma_iff]
        obtain ⟨piece', pieces', hrest', hcons'⟩ := piecesFrom_cons htext (rest.map Cell.masked)
        rw [charStep_masked, ih, hrest, List.map_cons, List.cons.injEq] at hrest'
        rw [hcons, List.map_cons, List.map_cons, hcons', ← hrest'.1, ← hrest'.2, List.map_cons]

/-! ### What is lost, and where -/

/-- Joined by commas, the pieces of cells are the cells. -/
theorem intercalate_segmentsFrom (depth : Nat) (cells : List Cell) :
    [⟨',', .code⟩].intercalate (segmentsFrom depth cells) = cells := by
  induction cells generalizing depth with
  | nil => rfl
  | cons c rest ih =>
      by_cases hcomma : depth = 0 ∧ c = ⟨',', .code⟩
      · obtain ⟨rfl, rfl⟩ := hcomma
        obtain ⟨piece, pieces, hrest⟩ := List.exists_cons_of_ne_nil (segmentsFrom_ne_nil 0 rest)
        rw [segmentsFrom_comma, hrest, List.intercalate_cons_cons, ← hrest, ih]
        rfl
      · obtain ⟨piece, pieces, hrest, hcons⟩ := segmentsFrom_cons hcomma rest
        rw [hcons, List.intercalate_cons_cons_left, ← hrest, ih]

theorem map_intercalate {α β : Type} (f : α → β) (separator : List α) (pieces : List (List α)) :
    (separator.intercalate pieces).map f =
      (separator.map f).intercalate (pieces.map (List.map f)) := by
  induction pieces with
  | nil => rfl
  | cons piece rest ih =>
      cases rest with
      | nil => simp
      | cons next rest =>
          rw [List.intercalate_cons_cons, List.map_append, List.map_append, ih]
          simp [List.intercalate_cons_cons]

/-- The places between pieces that were separated by one character each. -/
def cutsFrom {α : Type} (place : Nat) : List (List α) → List Nat
  | [] => []
  | [_] => []
  | piece :: next :: rest =>
    (place + piece.length) :: cutsFrom (place + piece.length + 1) (next :: rest)

theorem cutsFrom_map {α β : Type} (f : α → β) (place : Nat) (pieces : List (List α)) :
    cutsFrom place (pieces.map (List.map f)) = cutsFrom place pieces := by
  induction pieces generalizing place with
  | nil => rfl
  | cons piece rest ih =>
      cases rest with
      | nil => rfl
      | cons next rest =>
          have hrest := ih (place + piece.length + 1)
          simp only [List.map_cons] at hrest
          simp only [List.map_cons, cutsFrom, List.length_map, hrest]

theorem cutsFrom_cons_head {α : Type} (place : Nat) (c : α) (piece : List α)
    (pieces : List (List α)) :
    cutsFrom place ((c :: piece) :: pieces) = cutsFrom (place + 1) (piece :: pieces) := by
  cases pieces with
  | nil => rfl
  | cons next rest =>
      have hplace : place + (piece.length + 1) = place + 1 + piece.length := by omega
      simp only [cutsFrom, List.length_cons, hplace]

/-- Cells are cut at the commas of the code that stand outside of brackets. -/
theorem mem_cutsFrom_segmentsFrom {depth place k : Nat} {cells : List Cell} :
    k ∈ cutsFrom place (segmentsFrom depth cells) ↔
      ∃ j, k = place + j ∧ cells[j]? = some ⟨',', .code⟩ ∧
        (cells.take j).foldl bracketStep depth = 0 := by
  induction cells generalizing depth place with
  | nil => simp [segmentsFrom, cutsFrom]
  | cons c rest ih =>
      -- the first cell, or one of those behind it
      have hsplit : (∃ j, k = place + j ∧ (c :: rest)[j]? = some ⟨',', .code⟩ ∧
            ((c :: rest).take j).foldl bracketStep depth = 0) ↔
          (k = place ∧ c = ⟨',', .code⟩ ∧ depth = 0) ∨
            ∃ j, k = place + 1 + j ∧ rest[j]? = some ⟨',', .code⟩ ∧
              (rest.take j).foldl bracketStep (bracketStep depth c) = 0 := by
        constructor
        · rintro ⟨j, rfl, hcell, hdepth⟩
          cases j with
          | zero => exact Or.inl ⟨rfl, by simpa using hcell, hdepth⟩
          | succ j => exact Or.inr ⟨j, by omega, by simpa using hcell, by simpa using hdepth⟩
        · rintro (⟨rfl, rfl, hdepth⟩ | ⟨j, rfl, hcell, hdepth⟩)
          · exact ⟨0, rfl, rfl, hdepth⟩
          · exact ⟨j + 1, by omega, by simpa using hcell, by simpa using hdepth⟩
      rw [hsplit]
      by_cases hcomma : depth = 0 ∧ c = ⟨',', .code⟩
      · obtain ⟨rfl, rfl⟩ := hcomma
        obtain ⟨piece, pieces, hrest⟩ := List.exists_cons_of_ne_nil (segmentsFrom_ne_nil 0 rest)
        have hstep : bracketStep 0 ⟨',', .code⟩ = 0 := by decide
        rw [segmentsFrom_comma, hrest, cutsFrom, List.mem_cons, ← hrest, ih, hstep]
        simp
      · obtain ⟨piece, pieces, hrest, hcons⟩ := segmentsFrom_cons hcomma rest
        have hnot : ¬(k = place ∧ c = ⟨',', .code⟩ ∧ depth = 0) := fun h => hcomma h.2.symm
        rw [hcons, cutsFrom_cons_head, ← hrest, ih, or_iff_right hnot]

/-! ### Places in bytes -/

/--
The places of the pieces of a text in its bytes of UTF-8, as one walk over the characters finds them:
`start` is the place of the current piece, and `here` that of the next character.
-/
def byteStarts (depth start here : Nat) : List Char → List Nat
  | [] => [start]
  | c :: rest =>
    if depth = 0 && c = ',' then start :: byteStarts 0 (here + 1) (here + 1) rest
    else byteStarts (charStep depth c) start (here + c.utf8Size) rest

/-- A piece stands in a text behind as many bytes as are said, and behind as many characters. -/
def StandsBehind (cs : List Char) (bytes : Nat) (piece : Nat × List Char) : Prop :=
  ∃ before after, cs = before ++ piece.2 ++ after ∧ bytes = (Utf8.encode before).length ∧
    piece.1 = before.length

theorem length_encode_append (cs ds : List Char) :
    (Utf8.encode (cs ++ ds)).length = (Utf8.encode cs).length + (Utf8.encode ds).length := by
  simp [Utf8.encode]

theorem length_encode_singleton (c : Char) : (Utf8.encode [c]).length = c.utf8Size := by
  simp [Utf8.encode]

theorem modifyHead_nil_append (pieces : List (List Char)) :
    pieces.modifyHead ([] ++ ·) = pieces := by
  cases pieces <;> rfl

/-- Behind what was read of a text, with `current` of its current piece, every piece that is found
stands at its places. -/
theorem forall₂_byteStarts (depth : Nat) (before current cs : List Char) :
    List.Forall₂ (StandsBehind (before ++ current ++ cs))
      (byteStarts depth (Utf8.encode before).length (Utf8.encode (before ++ current)).length cs)
      (withColumns before.length ((piecesFrom depth cs).modifyHead (current ++ ·))) := by
  induction cs generalizing depth before current with
  | nil => exact .cons ⟨before, [], by simp, rfl, rfl⟩ .nil
  | cons c rest ih =>
      by_cases hcomma : depth = 0 ∧ c = ','
      · obtain ⟨rfl, rfl⟩ := hcomma
        -- the next piece starts behind the comma, with nothing of it read so far
        have hrest := ih 0 (before ++ current ++ [',']) []
        have hbytes : (Utf8.encode (before ++ current ++ [','])).length =
            (Utf8.encode (before ++ current)).length + 1 := by
          rw [length_encode_append, length_encode_singleton]
          rfl
        rw [List.append_nil, hbytes, modifyHead_nil_append, List.append_assoc _ [','] rest,
          List.singleton_append, List.length_append, List.length_append,
          List.length_singleton] at hrest
        rw [piecesFrom_comma, List.modifyHead_cons, List.append_nil, byteStarts,
          if_pos (by decide), withColumns]
        exact .cons ⟨before, ',' :: rest, by simp, rfl, rfl⟩ hrest
      · obtain ⟨piece, pieces, hpieces, hcons⟩ := piecesFrom_cons hcomma rest
        have hrest := ih (charStep depth c) before (current ++ [c])
        rw [hpieces, List.modifyHead_cons, ← List.append_assoc before, length_encode_append,
          length_encode_singleton] at hrest
        rw [hcons, List.modifyHead_cons, byteStarts, if_neg (by simpa using hcomma)]
        simpa using hrest

/-! ### Lines -/

namespace Line

/-- A line is to be cut at the commas of its code to which no bracket is open. -/
def CutsAt (l : Line) (k : Nat) : Prop :=
  l.cells[k]? = some ⟨',', .code⟩ ∧ (l.cells.take k).foldl bracketStep 0 = 0

/--
A line is cut into pieces of a text: joined by commas they are all of the text, and it is cut where
the line is to be cut, and nowhere else.
-/
structure CutsInto (l : Line) (text : List Char) (pieces : List (List Char)) : Prop where
  joined : [','].intercalate pieces = text
  mem_cuts_iff : ∀ k, k ∈ cutsFrom 0 pieces ↔ l.CutsAt k

/-- The pieces of the cells, shown in any way that keeps the commas of the code. -/
theorem cutsInto_map (l : Line) {f : Cell → Char} (hf : f ⟨',', .code⟩ = ',') :
    l.CutsInto (l.cells.map f) ((segmentsFrom 0 l.cells).map (List.map f)) := by
  constructor
  · have hjoined := congrArg (List.map f) (intercalate_segmentsFrom 0 l.cells)
    rwa [map_intercalate, List.map_singleton, hf] at hjoined
  · intro k
    rw [cutsFrom_map, mem_cutsFrom_segmentsFrom, CutsAt]
    simp

end Line

theorem withColumns_map_snd (column : Nat) (pieces : List (List Char)) :
    (withColumns column pieces).map Prod.snd = pieces := by
  induction pieces generalizing column with
  | nil => rfl
  | cons piece rest ih => simp [withColumns, ih]

/--
**Both ways to cut a line agree, and lose nothing.**  The pieces of the blanked text of any line and
the segments of its cells are as many, and as long one by one.  Joined by commas, either are all
that was cut, and it was cut at the commas of the code to which no bracket is open.  Walking over
the bytes of the text, each piece is found to start behind what comes before it.
-/
theorem cuts_agree (l : Line) :
    (splitPieces 0 l.maskedText).map (fun piece => piece.2.length) =
        (splitSegments l.cells).map List.length ∧
      l.CutsInto l.maskedText ((splitPieces 0 l.maskedText).map Prod.snd) ∧
      l.CutsInto l.text (splitSegments l.cells) ∧
      List.Forall₂ (StandsBehind l.maskedText) (byteStarts 0 0 0 l.maskedText)
        (splitPieces 0 l.maskedText) := by
  have hpieces : (splitPieces 0 l.maskedText).map Prod.snd =
      (segmentsFrom 0 l.cells).map (List.map Cell.masked) := by
    rw [splitPieces, withColumns_map_snd, Line.maskedText, piecesFrom_masked]
  refine ⟨?_, ?_, ?_, ?_⟩
  · calc (splitPieces 0 l.maskedText).map (fun piece => piece.2.length)
      _ = ((splitPieces 0 l.maskedText).map Prod.snd).map List.length := by rw [List.map_map]; rfl
      _ = (splitSegments l.cells).map List.length := by
          rw [hpieces, splitSegments, List.map_map, List.map_map]
          simp [Function.comp_def]
  · rw [hpieces]
    exact l.cutsInto_map rfl
  · exact l.cutsInto_map rfl
  · have hstarts := forall₂_byteStarts 0 [] [] l.maskedText
    rw [modifyHead_nil_append] at hstarts
    exact hstarts

end ScriptOutline
