/-
**Sets of characters given by ranges of code points.**

A property that the Unicode standard gives to characters, such as *alphabetic*, is a table of closed
ranges of code points in ascending order.  Membership is decided by walking the table and stops at
the first range that lies above the character, so that the common low characters are settled after a
step or two.

Main definitions:

* `CodePoints` — a table of closed ranges;
* `CodePoints.has` — membership of a character in a table.

Main results:

* `CodePoints.exists_of_has` — a member lies in one of the ranges.
-/

set_option relaxedAutoImplicit false
set_option autoImplicit false

namespace ScriptOutline

/-- A table of closed ranges of code points, ascending and disjoint. -/
abbrev CodePoints := List (Nat × Nat)

namespace CodePoints

/-- Whether a character lies in one of the ranges of an ascending table. -/
def has : CodePoints → Char → Bool
  | [], _ => false
  | (low, high) :: rest, c =>
    if c.toNat < low then false
    else if c.toNat ≤ high then true
    else has rest c

@[simp] theorem has_nil (c : Char) : has [] c = false := rfl

theorem has_cons (low high : Nat) (rest : CodePoints) (c : Char) :
    has ((low, high) :: rest) c =
      if c.toNat < low then false else if c.toNat ≤ high then true else has rest c := rfl

/-- A member of a table lies in one of its ranges. -/
theorem exists_of_has {table : CodePoints} {c : Char} (h : has table c = true) :
    ∃ range ∈ table, range.1 ≤ c.toNat ∧ c.toNat ≤ range.2 := by
  induction table with
  | nil => simp at h
  | cons range rest ih =>
    obtain ⟨low, high⟩ := range
    rw [has_cons] at h
    split at h
    · simp at h
    · split at h
      · exact ⟨(low, high), List.mem_cons_self, by omega, by assumption⟩
      · obtain ⟨r, hr, hc⟩ := ih h
        exact ⟨r, List.mem_cons_of_mem _ hr, hc⟩

end CodePoints

end ScriptOutline
