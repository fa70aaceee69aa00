/-
**The lines of a text.**

A text is its pieces with a line feed between each two, and a line is a piece without the carriage
return at its end.

Main results:

* `splitBreaks_eq_splitOn` — the pieces of a text are those of the library;
* `splitBreaks_append`, `linesOf_append` — two texts one below the other;
* `splitBreaks_intercalate` — pieces put together are found again;
* `not_mem_of_mem_linesOf` — no line holds a line feed.
-/

import ScriptOutline.Source

set_option relaxedAutoImplicit false
set_option autoImplicit false

namespace ScriptOutline

/-- The pieces of a text are what is left when it is split at the line feeds. -/
theorem splitBreaks_eq_splitOn (text : List Char) : splitBreaks text = text.splitOn '\n' := by
  induction text with
  | nil => rfl
  | cons c rest ih =>
      simp only [splitBreaks, List.splitOn_cons_eq_if_modifyHead, beq_iff_eq, ih]
      split
      · rfl
      · cases hrest : rest.splitOn '\n' with
        | nil => exact absurd hrest (List.splitOn_ne_nil '\n' rest)
        | cons piece pieces => rfl

theorem splitBreaks_ne_nil (text : List Char) : splitBreaks text ≠ [] := by
  rw [splitBreaks_eq_splitOn]
  exact List.splitOn_ne_nil '\n' text

theorem splitBreaks_append (a b : List Char) :
    splitBreaks (a ++ '\n' :: b) = splitBreaks a ++ splitBreaks b := by
  simp only [splitBreaks_eq_splitOn]
  exact List.splitOn_append_cons_self a b

/-- The lines of two texts, one below the other. -/
theorem linesOf_append (a b : List Char) :
    linesOf (a ++ '\n' :: b) = linesOf a ++ linesOf b := by
  rw [linesOf, splitBreaks_append, List.map_append]
  rfl

theorem linesOf_ne_nil (text : List Char) : linesOf text ≠ [] := by
  rw [linesOf, ne_eq, List.map_eq_nil_iff]
  exact splitBreaks_ne_nil text

/-- Pieces without line feeds are found again in the text that they make up. -/
theorem splitBreaks_intercalate {pieces : List (List Char)} (hne : pieces ≠ [])
    (h : ∀ piece ∈ pieces, '\n' ∉ piece) :
    splitBreaks (List.intercalate ['\n'] pieces) = pieces := by
  rw [splitBreaks_eq_splitOn]
  exact List.splitOn_intercalate '\n' h hne

/-- No piece holds a line feed. -/
theorem not_mem_of_mem_splitBreaks {text piece : List Char} (h : piece ∈ splitBreaks text) :
    '\n' ∉ piece := by
  induction text generalizing piece with
  | nil =>
      simp only [splitBreaks, List.mem_singleton] at h
      simp [h]
  | cons c rest ih =>
      simp only [splitBreaks] at h
      split at h
      · rcases List.mem_cons.1 h with rfl | h
        · simp
        · exact ih h
      · next hc =>
          cases hrest : splitBreaks rest with
          | nil => exact absurd hrest (splitBreaks_ne_nil rest)
          | cons first pieces =>
              simp only [hrest] at h
              rcases List.mem_cons.1 h with rfl | h
              · have hfirst : '\n' ∉ first := ih (by simp [hrest])
                rw [List.mem_cons, not_or]
                exact ⟨fun heq => hc heq.symm, hfirst⟩
              · exact ih (by simp [hrest, h])

/-- A piece is its line with a carriage return, or is a line that does not end with one. -/
theorem dropReturn_cases (piece : List Char) :
    piece = dropReturn piece ++ ['\r'] ∨
      (piece.getLast? ≠ some '\r' ∧ dropReturn piece = piece) := by
  unfold dropReturn
  split
  · next hlast =>
      left
      obtain ⟨start, rfl⟩ := List.getLast?_eq_some_iff.1 hlast
      rw [List.dropLast_concat]
  · next hlast => exact Or.inr ⟨hlast, rfl⟩

theorem not_mem_dropReturn {piece : List Char} (h : '\n' ∉ piece) : '\n' ∉ dropReturn piece := by
  rcases dropReturn_cases piece with heq | ⟨-, heq⟩
  · rw [heq, List.mem_append, not_or] at h
    exact h.1
  · rwa [heq]

/-- No line holds a line feed. -/
theorem not_mem_of_mem_linesOf {text line : List Char} (h : line ∈ linesOf text) :
    '\n' ∉ line := by
  obtain ⟨piece, hpiece, rfl⟩ := List.mem_map.1 h
  exact not_mem_dropReturn (not_mem_of_mem_splitBreaks hpiece)

end ScriptOutline
