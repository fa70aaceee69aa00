/-
**Looking keys up in lists of pairs.**

Brace pairs, the entries of a store and those of a folder are lists of pairs in which each key
stands once.

Main results:

* `lookup_eq_some_iff_mem` — where each key stands once, it leads to what stands beside it;
* `lookup_map_of_injective` — renamed keys lead where the old ones led.
-/

import Mathlib.Logic.Function.Basic

set_option relaxedAutoImplicit false
set_option autoImplicit false

namespace ScriptOutline

variable {κ κ' β β' : Type} [BEq κ] [LawfulBEq κ] [BEq κ'] [LawfulBEq κ']

/-- Where each key stands once, a key leads to the value beside it. -/
theorem lookup_eq_some_iff_mem {entries : List (κ × β)} (h : (entries.map Prod.fst).Nodup)
    {key : κ} {b : β} : entries.lookup key = some b ↔ (key, b) ∈ entries := by
  induction entries with
  | nil => simp
  | cons first rest ih =>
      obtain ⟨key', b'⟩ := first
      rw [List.map_cons, List.nodup_cons] at h
      by_cases hkey : key = key'
      · subst hkey
        have hnot : (key, b) ∉ rest := fun hmem => h.1 (List.mem_map.2 ⟨(key, b), hmem, rfl⟩)
        simp [hnot, eq_comm]
      · have hb : (key == key') = false := beq_eq_false_iff_ne.2 hkey
        simp [List.lookup_cons, hb, ih h.2, hkey]

/-- Where keys are renamed and none are made equal, a key leads to what the old one led to. -/
theorem lookup_map_of_injective {f : κ → κ'} (hf : Function.Injective f) (g : β → β')
    (entries : List (κ × β)) (key : κ) :
    (entries.map fun e => (f e.1, g e.2)).lookup (f key) = (entries.lookup key).map g := by
  induction entries with
  | nil => rfl
  | cons first rest ih =>
      obtain ⟨key', b⟩ := first
      have hkey : (f key == f key') = (key == key') := by
        rw [Bool.eq_iff_iff, beq_iff_eq, beq_iff_eq, hf.eq_iff]
      simp only [List.map_cons, List.lookup_cons, hkey, ih]
      cases key == key' <;> rfl

end ScriptOutline
