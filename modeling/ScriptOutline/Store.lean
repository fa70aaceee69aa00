/-
**A store of values that expire.**

Values are kept under keys, with the time they were put in, in milliseconds.  A value is handed out
as long as its age is below the lifetime of the store; after that it is still there until it is
removed or replaced.  A value that seems to come from the future has the age zero.  The lifetime is
compared as a number of 64 bits.

Main definitions:

* `documentKey` — the key of a document: its file name in small letters, with one spelling of the
  extension;
* `Entry`, `Store` — a value with its time, and the values of all keys;
* `Store.insert`, `Store.find?`, `Store.has`, `Store.erase`, `Store.clear`, `Store.evict`,
  `Store.stats` — the operations.

Main results:

* `Store.kept?_insert` — what is put in is there, and nothing else changes.
-/

import ScriptOutline.Text.Lowercase

set_option relaxedAutoImplicit false
set_option autoImplicit false

namespace ScriptOutline

/-! ### Keys -/

/-- Whether a character separates the segments of a path of any system. -/
def isSeparator (c : Char) : Bool :=
  c = '/' || c = '\\'

/-- What follows the last separator of a path. -/
def lastSegment (cs : List Char) : List Char :=
  (cs.reverse.takeWhile fun c => !isSeparator c).reverse

/-- The key of a document: the last segment of its path in small letters, as a plain script. -/
def documentKey (document : String) : String :=
  let name := lowercaseChars (lastSegment document.toList)
  String.ofList (if ".ahk2".toList.isSuffixOf name then name.dropLast else name)

/-! ### The store -/

/-- A value with the time it was put in. -/
structure Entry (α : Type) where
  value : α
  time : Nat
  deriving DecidableEq, Repr

/-- Values under keys, each key once. -/
structure Store (α : Type) where
  /-- How long a value is handed out, in milliseconds. -/
  lifetime : Nat
  entries : List (String × Entry α)
  keys_nodup : (entries.map Prod.fst).Nodup := by simp

namespace Store

variable {α : Type}

/-- How long a value is handed out by default: five minutes. -/
def defaultLifetime : Nat := 300000

/-- A store that holds nothing. -/
def empty (lifetime : Nat) : Store α :=
  ⟨lifetime, [], by simp⟩

/-- The entries that pass a test still have each key once. -/
theorem nodup_filter (s : Store α) (p : String × Entry α → Bool) :
    ((s.entries.filter p).map Prod.fst).Nodup :=
  s.keys_nodup.sublist (List.filter_sublist.map Prod.fst)

/-- A store with the entries that pass a test. -/
def filter (s : Store α) (p : String × Entry α → Bool) : Store α :=
  ⟨s.lifetime, s.entries.filter p, s.nodup_filter p⟩

/-- A store with a value put under the key of a document. -/
def insert (s : Store α) (document : String) (value : α) (time : Nat) : Store α :=
  let key := documentKey document
  ⟨s.lifetime, (key, ⟨value, time⟩) :: s.entries.filter (·.1 ≠ key), by
    refine List.nodup_cons.2 ⟨?_, s.nodup_filter _⟩
    simp [List.mem_map]⟩

/-- What is kept under the key of a document, expired or not. -/
def kept? (s : Store α) (document : String) : Option (Entry α) :=
  s.entries.lookup (documentKey document)

/-- Whether an entry is too old to be handed out. -/
def isExpired (s : Store α) (now : Nat) (e : Entry α) : Bool :=
  s.lifetime % UInt64.size ≤ now - e.time

/-- The value for a document, unless it is too old. -/
def find? (s : Store α) (document : String) (now : Nat) : Option α :=
  match s.kept? document with
  | some e => if s.isExpired now e then none else some e.value
  | none => none

/-- Whether anything is kept for a document, expired or not. -/
def has (s : Store α) (document : String) : Bool :=
  (s.kept? document).isSome

/-- A store without what was kept for a document. -/
def erase (s : Store α) (document : String) : Store α :=
  s.filter (·.1 ≠ documentKey document)

/-- A store without any value. -/
def clear (s : Store α) : Store α :=
  empty s.lifetime

/-- The number of keys. -/
def size (s : Store α) : Nat :=
  s.entries.length

/-- A store without the values that are too old. -/
def evict (s : Store α) (now : Nat) : Store α :=
  s.filter fun e => !s.isExpired now e.2

/-- The number of values that are too old. -/
def expiredCount (s : Store α) (now : Nat) : Nat :=
  s.size - (s.evict now).size

/-- How full a store is, and when its oldest and newest values were put in. -/
structure Stats where
  size : Nat
  oldest : Option Nat
  newest : Option Nat
  deriving DecidableEq, Repr

/-- How full a store is. -/
def stats (s : Store α) : Stats :=
  let times := s.entries.map (·.2.time)
  ⟨s.size, times.min?, times.max?⟩

/-- What is put in is there, and nothing else changes. -/
theorem kept?_insert (s : Store α) (document other : String) (value : α) (time : Nat) :
    (s.insert document value time).kept? other =
      if documentKey other = documentKey document then some ⟨value, time⟩ else s.kept? other := by
  simp only [kept?, insert, List.lookup_cons]
  by_cases h : documentKey other = documentKey document
  · simp [h]
  · have hb : (documentKey other == documentKey document) = false := by simpa using h
    simp only [hb, h, if_false]
    induction s.entries with
    | nil => rfl
    | cons e rest ih =>
      obtain ⟨key, entry⟩ := e
      by_cases hk : key = documentKey document
      · simpa [hk, List.lookup_cons, hb] using ih
      · have hstays : ((key, entry) :: rest).filter (fun e => decide (e.1 ≠ documentKey document)) =
            (key, entry) :: rest.filter (fun e => decide (e.1 ≠ documentKey document)) :=
          List.filter_cons_of_pos (by simpa using hk)
        rw [hstays, List.lookup_cons, List.lookup_cons]
        cases documentKey other == key with
        | true => rfl
        | false => exact ih

end Store

end ScriptOutline
