/-
**Brace pairs.**

A closing brace goes with the last opening brace that is still pending.  What is pending after a
part of a text is all that the pairs of the rest depend on, and a brace that is pending at the end
has no other end.

Main definitions:

* `pendingAfter` — the opening braces that are pending after a run of spots;
* `Source.IsPaired` — the brace pairs of a text are those of its spots.

Main results:

* `pairBraces_append` — the pairs of two runs, one after the other;
* `mem_pairBraces`, `mem_pendingAfter` — pairs and pending braces are braces of the code;
* `pairBraces_nodup` — no brace opens two pairs, or opens one and is pending;
* `Source.matchingBrace?_of_mem` — a pair tells which brace closes another.
-/

import ScriptOutline.Proofs.PairedLists
import ScriptOutline.Proofs.ReadingOrder

set_option relaxedAutoImplicit false
set_option autoImplicit false

namespace ScriptOutline

/-! ### Pairs and pending braces -/

theorem pairBraces_open {pending : List Position} {x : Spot} {rest : List Spot}
    (hx : x.cell.isCodeChar '{' = true) :
    pairBraces pending (x :: rest) = pairBraces (x.position :: pending) rest := by
  simp [pairBraces, hx]

theorem Cell.isCodeChar_iff {c : Cell} {char : Char} :
    c.isCodeChar char = true ↔ c = ⟨char, .code⟩ := by
  obtain ⟨char', region⟩ := c
  simp [Cell.isCodeChar, Cell.isCode, and_comm]

theorem pairBraces_close {opening : Position} {pending : List Position} {x : Spot}
    {rest : List Spot} (hx : x.cell.isCodeChar '}' = true) :
    pairBraces (opening :: pending) (x :: rest) =
      (opening, x.position) :: pairBraces pending rest := by
  have hopen : x.cell.isCodeChar '{' = false := by
    rw [Cell.isCodeChar_iff.1 hx]
    decide
  simp [pairBraces, hx, hopen]

theorem pairBraces_other {pending : List Position} {x : Spot} {rest : List Spot}
    (hopen : x.cell.isCodeChar '{' = false) (hclose : x.cell.isCodeChar '}' = false) :
    pairBraces pending (x :: rest) = pairBraces pending rest := by
  simp [pairBraces, hopen, hclose]

/-- The opening braces that are pending after a run of spots, the last one first. -/
def pendingAfter (pending : List Position) : List Spot → List Position
  | [] => pending
  | x :: rest =>
    if x.cell.isCodeChar '{' then pendingAfter (x.position :: pending) rest
    else if x.cell.isCodeChar '}' then pendingAfter pending.tail rest
    else pendingAfter pending rest

theorem pendingAfter_append (pending : List Position) (xs ys : List Spot) :
    pendingAfter pending (xs ++ ys) = pendingAfter (pendingAfter pending xs) ys := by
  induction xs generalizing pending with
  | nil => rfl
  | cons x rest ih =>
      simp only [List.cons_append, pendingAfter]
      split
      · exact ih _
      · split
        · exact ih _
        · exact ih _

/-- The pairs of two runs, one after the other. -/
theorem pairBraces_append (pending : List Position) (xs ys : List Spot) :
    pairBraces pending (xs ++ ys) =
      pairBraces pending xs ++ pairBraces (pendingAfter pending xs) ys := by
  induction xs generalizing pending with
  | nil => rfl
  | cons x rest ih =>
      simp only [List.cons_append, pairBraces, pendingAfter]
      split
      · exact ih _
      · split
        · cases pending with
          | nil => exact ih []
          | cons opening pending => exact congrArg ((opening, x.position) :: ·) (ih pending)
        · exact ih _

/-- The ends of a brace pair are braces of the spots, or pending ones. -/
theorem mem_pairBraces {pending : List Position} {spots : List Spot} {q : Position × Position}
    (h : q ∈ pairBraces pending spots) :
    (q.1 ∈ pending ∨ ⟨q.1, ⟨'{', .code⟩⟩ ∈ spots) ∧ ⟨q.2, ⟨'}', .code⟩⟩ ∈ spots := by
  induction spots generalizing pending with
  | nil => simp [pairBraces] at h
  | cons x rest ih =>
      simp only [pairBraces] at h
      split at h
      · next hx =>
          obtain ⟨hopen, hclose⟩ := ih h
          refine ⟨?_, List.mem_cons_of_mem x hclose⟩
          rcases hopen with hopen | hopen
          · rcases List.mem_cons.1 hopen with heq | hopen
            · rw [heq, ← Cell.isCodeChar_iff.1 hx]
              exact Or.inr List.mem_cons_self
            · exact Or.inl hopen
          · exact Or.inr (List.mem_cons_of_mem x hopen)
      · split at h
        · next hx =>
            split at h
            · obtain ⟨hopen, hclose⟩ := ih h
              exact ⟨hopen.imp id (List.mem_cons_of_mem x), List.mem_cons_of_mem x hclose⟩
            · next opening pending =>
                rcases List.mem_cons.1 h with rfl | h
                · refine ⟨Or.inl List.mem_cons_self, ?_⟩
                  rw [← Cell.isCodeChar_iff.1 hx]
                  exact List.mem_cons_self
                · obtain ⟨hopen, hclose⟩ := ih h
                  exact ⟨hopen.imp (List.mem_cons_of_mem opening) (List.mem_cons_of_mem x),
                    List.mem_cons_of_mem x hclose⟩
        · obtain ⟨hopen, hclose⟩ := ih h
          exact ⟨hopen.imp id (List.mem_cons_of_mem x), List.mem_cons_of_mem x hclose⟩

theorem mem_pendingAfter {pending : List Position} {spots : List Spot} {p : Position}
    (h : p ∈ pendingAfter pending spots) : p ∈ pending ∨ ⟨p, ⟨'{', .code⟩⟩ ∈ spots := by
  induction spots generalizing pending with
  | nil => exact Or.inl h
  | cons x rest ih =>
      simp only [pendingAfter] at h
      split at h
      · next hx =>
          rcases ih h with h | h
          · rcases List.mem_cons.1 h with rfl | h
            · rw [← Cell.isCodeChar_iff.1 hx]
              exact Or.inr List.mem_cons_self
            · exact Or.inl h
          · exact Or.inr (List.mem_cons_of_mem x h)
      · split at h
        · exact (ih h).imp List.mem_of_mem_tail (List.mem_cons_of_mem x)
        · exact (ih h).imp id (List.mem_cons_of_mem x)

/-- No brace opens two pairs, or opens one and is pending at the end. -/
theorem pairBraces_nodup {pending : List Position} {spots : List Spot}
    (h : (pending ++ spots.map Spot.position).Nodup) :
    ((pairBraces pending spots).map Prod.fst ++ pendingAfter pending spots).Nodup := by
  induction spots generalizing pending with
  | nil => simpa [pairBraces, pendingAfter] using h
  | cons x rest ih =>
      simp only [List.map_cons] at h
      have hrest : (pending ++ rest.map Spot.position).Nodup :=
        h.sublist ((List.Sublist.refl pending).append (List.sublist_cons_self _ _))
      simp only [pairBraces, pendingAfter]
      split
      · exact ih ((List.perm_middle.nodup_iff).1 h)
      · split
        · cases pending with
          | nil => exact ih hrest
          | cons opening pending =>
              -- the brace that is closed here opens no later pair and is pending no more
              have hnot := (List.nodup_cons.1 hrest).1
              rw [List.map_cons, List.cons_append, List.nodup_cons]
              refine ⟨?_, ih (List.nodup_cons.1 hrest).2⟩
              intro hmem
              refine hnot (List.mem_append.2 ?_)
              rcases List.mem_append.1 hmem with hmem | hmem
              · obtain ⟨q, hq, heq⟩ := List.mem_map.1 hmem
                obtain ⟨hopen, -⟩ := mem_pairBraces hq
                simp only at heq
                rw [heq] at hopen
                exact hopen.imp id fun hopen => List.mem_map_of_mem (f := Spot.position) hopen
              · exact (mem_pendingAfter hmem).imp id fun hopen =>
                  List.mem_map_of_mem (f := Spot.position) hopen
        · exact ih hrest

namespace Source

/-- The brace pairs of a text are those of its spots. -/
def IsPaired (s : Source) : Prop :=
  s.bracePairs = pairBraces [] s.spots

theorem isPaired_scan (text : List Char) : (scan text).IsPaired := rfl

theorem spots_positions_nodup (s : Source) : (s.spots.map Spot.position).Nodup := by
  rw [List.Nodup, List.pairwise_map]
  exact s.spots_pairwise.imp fun h => ne_of_lt h

theorem pairs_nodup (s : Source) :
    ((pairBraces [] s.spots).map Prod.fst ++ pendingAfter [] s.spots).Nodup :=
  pairBraces_nodup (by simpa using s.spots_positions_nodup)

/-- A brace pair tells which brace closes an opening one. -/
theorem matchingBrace?_of_mem {s : Source} (hs : s.IsPaired) {q : Position × Position}
    (h : q ∈ pairBraces [] s.spots) : s.matchingBrace? q.1 = some q.2 := by
  rw [matchingBrace?, hs]
  exact (lookup_eq_some_iff_mem (s.pairs_nodup.sublist (List.sublist_append_left _ _))).2 h

theorem mem_of_matchingBrace? {s : Source} (hs : s.IsPaired) {p c : Position}
    (h : s.matchingBrace? p = some c) : (p, c) ∈ pairBraces [] s.spots := by
  rw [matchingBrace?, hs] at h
  obtain ⟨before, after, hpairs, -⟩ := List.lookup_eq_some_iff.1 h
  simp [hpairs]

/-- Where every opening brace has its other end, none is pending at the end. -/
theorem pendingAfter_eq_nil {s : Source} (hs : s.IsPaired)
    (h : ∀ x ∈ s.spots, x.cell.isCodeChar '{' = true →
      (s.matchingBrace? x.position).isSome = true) : pendingAfter [] s.spots = [] := by
  rw [List.eq_nil_iff_forall_not_mem]
  intro p hp
  rcases mem_pendingAfter hp with hnil | hmem
  · simp at hnil
  · obtain ⟨c, hc⟩ := Option.isSome_iff_exists.1 (h _ hmem (Cell.isCodeChar_iff.2 rfl))
    have hpair := mem_of_matchingBrace? hs hc
    have hdisjoint := (List.nodup_append.1 s.pairs_nodup).2.2
    exact hdisjoint p (List.mem_map_of_mem hpair) p hp rfl

end Source

end ScriptOutline
