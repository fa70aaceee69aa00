/-
**A store is a map with times.**

What a store holds after some steps can be told from the steps alone: under each key stands what was
put in last, with its time, unless a later step took it away.  Reading adds the age of the value:
one that has reached the lifetime of the store is not handed out, though it is still there.
Evicting such values is never seen by a reader who looks later, since values only grow older.

Main definitions:

* `Entry.age` — the age of an entry, zero for one that comes from the future;
* `StoreStep`, `Store.run` — the steps that change a store, and what they lead to;
* `Lasts` — an entry was put in under a key, and no later step took it away;
* `AgreeOnFresh` — two stores hold the same, but for what is expired at a time;
* `respelledSteps` — steps on one document under two spellings.

Main results:

* `Store.find?_of_kept?`, `Store.find?_insert` — how long a value is found, for any lifetime;
* `Store.mem_step`, `Store.mem_run` — the entries after one step and after a run;
* `AgreeOnFresh.step`, `AgreeOnFresh.find?_eq` — steps keep two stores in agreement, and readers
  cannot tell them apart;
* `run_refines_map` — **a store behaves as the map that its steps describe**.
-/

import Mathlib.Data.Set.Card
import ScriptOutline.Proofs.PairedLists
import ScriptOutline.Store

set_option relaxedAutoImplicit false
set_option autoImplicit false

namespace ScriptOutline

variable {α : Type}

/-! ### Steps and what they leave -/

/-- The age of an entry at a time; one that comes from the future has the age zero. -/
def Entry.age (e : Entry α) (now : Nat) : Int :=
  max 0 ((now : Int) - e.time)

/-- A step that changes a store. -/
inductive StoreStep (α : Type) where
  | insert (document : String) (value : α) (time : Nat)
  | erase (document : String)
  | clear
  | evict (now : Nat)
  deriving DecidableEq, Repr

/-- Whether a step puts an entry in under a key. -/
def StoreStep.Puts (key : String) (e : Entry α) : StoreStep α → Prop
  | insert document value time => documentKey document = key ∧ e = ⟨value, time⟩
  | _ => False

/-- Whether a step takes away what is kept under a key: it replaces, removes or evicts it. -/
def StoreStep.Takes (lifetime : Nat) (key : String) (e : Entry α) : StoreStep α → Prop
  | insert document _ _ => documentKey document = key
  | erase document => documentKey document = key
  | clear => True
  | evict now => lifetime ≤ e.age now

instance (lifetime : Nat) (key : String) (e : Entry α) :
    (step : StoreStep α) → Decidable (step.Takes lifetime key e)
  | .insert document _ _ => inferInstanceAs (Decidable (documentKey document = key))
  | .erase document => inferInstanceAs (Decidable (documentKey document = key))
  | .clear => inferInstanceAs (Decidable True)
  | .evict now => inferInstanceAs (Decidable ((lifetime : Int) ≤ e.age now))

/-- An entry was put in under a key, and no later step took it away. -/
def Lasts (lifetime : Nat) (steps : List (StoreStep α)) (key : String) (e : Entry α) : Prop :=
  ∃ before put after, steps = before ++ put :: after ∧ put.Puts key e ∧
    ∀ step ∈ after, ¬step.Takes lifetime key e

/-- After one more step, an entry lasts if that step puts it in, or does not take it away. -/
theorem lasts_concat {lifetime : Nat} {steps : List (StoreStep α)} {step : StoreStep α}
    {key : String} {e : Entry α} :
    Lasts lifetime (steps ++ [step]) key e ↔
      step.Puts key e ∨ Lasts lifetime steps key e ∧ ¬step.Takes lifetime key e := by
  constructor
  · rintro ⟨before, put, after, hsteps, hput, hafter⟩
    rcases List.eq_nil_or_concat after with rfl | ⟨start, last, rfl⟩
    -- nothing came after the step that put it in: it is the new one
    · obtain ⟨-, hlast⟩ := List.append_inj' hsteps rfl
      rw [List.singleton_inj.1 hlast]
      exact Or.inl hput
    · rw [List.concat_eq_append, ← List.cons_append, ← List.append_assoc] at hsteps
      obtain ⟨hstart, hlast⟩ := List.append_inj' hsteps rfl
      rw [List.singleton_inj.1 hlast]
      refine Or.inr ⟨⟨before, put, start, hstart, hput, ?_⟩, hafter last (by simp)⟩
      exact fun x hx => hafter x (by simp [hx])
  · rintro (hput | ⟨⟨before, put, after, rfl, hput, hafter⟩, hlast⟩)
    · exact ⟨steps, step, [], rfl, hput, by simp⟩
    · refine ⟨before, put, after ++ [step], by simp, hput, ?_⟩
      intro x hx
      rcases List.mem_append.1 hx with hx | hx
      · exact hafter x hx
      · rwa [List.mem_singleton.1 hx]

theorem not_lasts_nil {lifetime : Nat} {key : String} {e : Entry α} :
    ¬Lasts lifetime [] key e := by
  rintro ⟨before, put, after, hsteps, -⟩
  simp at hsteps

namespace Store

/-- What one step leads to. -/
def step (s : Store α) : StoreStep α → Store α
  | .insert document value time => s.insert document value time
  | .erase document => s.erase document
  | .clear => s.clear
  | .evict now => s.evict now

/-- What steps lead to, one after the other. -/
def run (s : Store α) (steps : List (StoreStep α)) : Store α :=
  steps.foldl step s

/-! ### What is kept under a key -/

theorem kept?_eq_some_iff {s : Store α} {document : String} {e : Entry α} :
    s.kept? document = some e ↔ (documentKey document, e) ∈ s.entries :=
  lookup_eq_some_iff_mem s.keys_nodup

/-- Under each key stands one entry. -/
theorem eq_of_mem {s : Store α} {key : String} {e e' : Entry α} (h : (key, e) ∈ s.entries)
    (h' : (key, e') ∈ s.entries) : e = e' := by
  have hlookup := (lookup_eq_some_iff_mem s.keys_nodup).2 h
  rw [(lookup_eq_some_iff_mem s.keys_nodup).2 h', Option.some.injEq] at hlookup
  exact hlookup.symm

/-- What is kept for a document depends on its key only. -/
theorem kept?_congr (s : Store α) {a b : String} (h : documentKey a = documentKey b) :
    s.kept? a = s.kept? b := by
  simp only [kept?, h]

/-- A value that is kept is found until it reaches the lifetime, of which 64 bits are compared. -/
theorem find?_of_kept? {s : Store α} {document : String} {e : Entry α}
    (h : s.kept? document = some e) (now : Nat) :
    s.find? document now =
      if now - e.time < s.lifetime % UInt64.size then some e.value else none := by
  simp only [find?, h, isExpired, decide_eq_true_eq]
  split <;> split <;> first | rfl | omega

/-- A value that is put in is found while its age is below the lifetime, cut to 64 bits. -/
theorem find?_insert (s : Store α) {document other : String}
    (h : documentKey other = documentKey document) (value : α) (time now : Nat) :
    (s.insert document value time).find? other now =
      if now - time < s.lifetime % UInt64.size then some value else none := by
  have hkept : (s.insert document value time).kept? other = some ⟨value, time⟩ := by
    rw [kept?_insert, if_pos h]
  exact find?_of_kept? hkept now

/-- A lifetime that fits 64 bits is compared as it is. -/
theorem isExpired_iff {s : Store α} (h : s.lifetime < UInt64.size) {now : Nat} {e : Entry α} :
    s.isExpired now e = true ↔ s.lifetime ≤ e.age now := by
  rw [isExpired, Nat.mod_eq_of_lt h, decide_eq_true_iff, Entry.age]
  omega

/-- A value is handed out as long as its age is below the lifetime. -/
theorem find?_eq_some_iff {s : Store α} (h : s.lifetime < UInt64.size) {document : String}
    {now : Nat} {v : α} : s.find? document now = some v ↔
      ∃ e, (documentKey document, e) ∈ s.entries ∧ e.value = v ∧ e.age now < s.lifetime := by
  simp only [← kept?_eq_some_iff, find?]
  cases s.kept? document with
  | none => simp
  | some e =>
      have hage := @isExpired_iff _ s h now e
      simp only [Option.some.injEq, exists_eq_left']
      split
      · next hexpired =>
          have hle := hage.1 hexpired
          simp only [reduceCtorEq, false_iff, not_and]
          omega
      · next hexpired =>
          have hlt := mt hage.2 hexpired
          simp only [Option.some.injEq, iff_self_and]
          omega

theorem has_iff {s : Store α} {document : String} :
    s.has document = true ↔ ∃ e, (documentKey document, e) ∈ s.entries := by
  simp only [has, Option.isSome_iff_exists, kept?_eq_some_iff]

/-! ### One step, and a run -/

@[simp] theorem lifetime_step (s : Store α) (x : StoreStep α) :
    (s.step x).lifetime = s.lifetime := by
  cases x <;> rfl

@[simp] theorem lifetime_run (s : Store α) (steps : List (StoreStep α)) :
    (s.run steps).lifetime = s.lifetime := by
  induction steps generalizing s with
  | nil => rfl
  | cons x rest ih => exact (ih (s.step x)).trans (lifetime_step s x)

/-- After a step, an entry is there if the step put it in, or did not take it away. -/
theorem mem_step {s : Store α} (h : s.lifetime < UInt64.size) {x : StoreStep α} {key : String}
    {e : Entry α} : (key, e) ∈ (s.step x).entries ↔
      x.Puts key e ∨ (key, e) ∈ s.entries ∧ ¬x.Takes s.lifetime key e := by
  cases x with
  | insert document value time =>
      simp [step, insert, StoreStep.Puts, StoreStep.Takes, @eq_comm _ _ key]
  | erase document =>
      simp [step, erase, filter, StoreStep.Puts, StoreStep.Takes, @eq_comm _ _ key]
  | clear => simp [step, clear, empty, StoreStep.Puts, StoreStep.Takes]
  | evict now =>
      have hage := @isExpired_iff _ s h now e
      simp [step, evict, filter, StoreStep.Puts, StoreStep.Takes, ← hage]

/-- After a run of steps, an entry is there if one of them put it in and it lasts. -/
theorem mem_run {lifetime : Nat} (h : lifetime < UInt64.size) (steps : List (StoreStep α))
    {key : String} {e : Entry α} :
    (key, e) ∈ ((empty lifetime).run steps).entries ↔ Lasts lifetime steps key e := by
  -- from the last step back, since `Lasts` looks at what came after
  induction steps using List.reverseRecOn with
  | nil => simp [run, empty, not_lasts_nil]
  | append_singleton steps x ih =>
      have hlifetime : ((empty lifetime : Store α).run steps).lifetime = lifetime :=
        lifetime_run _ steps
      have hstep := @mem_step α ((empty lifetime).run steps) (by rwa [hlifetime]) x key e
      rw [hlifetime, ih] at hstep
      rw [run, List.foldl_concat, lasts_concat]
      exact hstep

/-! ### Numbers of entries -/

/-- Some entries are as many as their keys. -/
theorem length_eq_ncard {entries : List (String × Entry α)}
    (h : (entries.map Prod.fst).Nodup) :
    entries.length = {key | ∃ e, (key, e) ∈ entries}.ncard := by
  have hset : {key | ∃ e, (key, e) ∈ entries} = ((entries.map Prod.fst).toFinset : Set String) := by
    ext key
    simp
  rw [hset, Set.ncard_coe_finset, List.toFinset_card_of_nodup h, List.length_map]

/-- Eviction removes the entries that are too old, and counts them. -/
theorem size_evict_add (s : Store α) (now : Nat) :
    (s.evict now).size + s.expiredCount now = s.size := by
  have hle : (s.evict now).size ≤ s.size := List.length_filter_le _ _
  rw [expiredCount]
  omega

theorem expiredCount_eq_length (s : Store α) (now : Nat) :
    s.expiredCount now = (s.entries.filter fun e => s.isExpired now e.2).length := by
  have hadd := s.size_evict_add now
  have hsplit := List.length_eq_length_filter_add (l := s.entries) fun e => s.isExpired now e.2
  simp only [size, evict, filter] at hadd
  omega

/-! ### Eviction cannot be seen -/

/-- Two stores hold the same entries, but for those that are expired at a time. -/
structure AgreeOnFresh (now : Nat) (s t : Store α) : Prop where
  lifetime : s.lifetime = t.lifetime
  entries : ∀ key (e : Entry α), e.age now < s.lifetime →
    ((key, e) ∈ s.entries ↔ (key, e) ∈ t.entries)

theorem agreeOnFresh_evict {s : Store α} (h : s.lifetime < UInt64.size) (now : Nat) :
    AgreeOnFresh now (s.evict now) s where
  lifetime := rfl
  entries := by
    intro key e hfresh
    have hmem := @mem_step α s h (.evict now) key e
    simp only [StoreStep.Puts, StoreStep.Takes, false_or] at hmem
    -- an eviction takes away only what is not fresh
    have hnot : ¬(s.lifetime ≤ e.age now) := not_le_of_gt hfresh
    rw [show s.step (.evict now) = s.evict now from rfl] at hmem
    rw [hmem, and_iff_left hnot]

namespace AgreeOnFresh

variable {now : Nat} {s t : Store α}

/-- One step keeps two stores in agreement: it treats a fresh entry the same in both. -/
theorem step (h : AgreeOnFresh now s t) (hs : s.lifetime < UInt64.size) (x : StoreStep α) :
    AgreeOnFresh now (s.step x) (t.step x) where
  lifetime := by simpa using h.lifetime
  entries := by
    intro key e hfresh
    rw [lifetime_step] at hfresh
    rw [mem_step hs, mem_step (h.lifetime ▸ hs), h.entries key e hfresh, h.lifetime]

theorem run (h : AgreeOnFresh now s t) (hs : s.lifetime < UInt64.size)
    (steps : List (StoreStep α)) : AgreeOnFresh now (s.run steps) (t.run steps) := by
  induction steps generalizing s t with
  | nil => exact h
  | cons x rest ih => exact ih (h.step hs x) (by rwa [lifetime_step])

/-- Readers who look later cannot tell the two stores apart. -/
theorem find?_eq (h : AgreeOnFresh now s t) (hs : s.lifetime < UInt64.size) {later : Nat}
    (hlater : now ≤ later) (document : String) :
    s.find? document later = t.find? document later := by
  ext v
  rw [find?_eq_some_iff hs, find?_eq_some_iff (h.lifetime ▸ hs), ← h.lifetime]
  -- what is fresh later is fresh at the earlier time, where the stores agree
  have hage : ∀ e : Entry α, e.age now ≤ e.age later := by
    intro e
    simp only [Entry.age]
    omega
  constructor
  · rintro ⟨e, hmem, hv, hfresh⟩
    exact ⟨e, (h.entries _ e (lt_of_le_of_lt (hage e) hfresh)).1 hmem, hv, hfresh⟩
  · rintro ⟨e, hmem, hv, hfresh⟩
    exact ⟨e, (h.entries _ e (lt_of_le_of_lt (hage e) hfresh)).2 hmem, hv, hfresh⟩

end AgreeOnFresh

end Store

/-! ### The map -/

/--
After any steps, in any order and with any times, a store is the map that takes a key to the value
that was put in last under it, with its time, if no later step took it away.  A value is handed out
exactly if its age is below the lifetime, and is there at any age.  The size is the number of keys,
and eviction counts those it removes.  Whatever comes after an eviction, a reader at a later time
finds what would be found without it.
-/
theorem run_refines_map {lifetime : Nat} (h : lifetime < UInt64.size) (steps : List (StoreStep α)) :
    let s := (Store.empty lifetime).run steps
    (∀ key e e', Lasts lifetime steps key e → Lasts lifetime steps key e' → e = e') ∧
    (∀ document now v, s.find? document now = some v ↔
      ∃ e, Lasts lifetime steps (documentKey document) e ∧ e.value = v ∧ e.age now < lifetime) ∧
    (∀ document, s.has document = true ↔ ∃ e, Lasts lifetime steps (documentKey document) e) ∧
    s.size = {key | ∃ e, Lasts lifetime steps key e}.ncard ∧ s.stats.size = s.size ∧
    (∀ now, s.expiredCount now =
        {key | ∃ e, Lasts lifetime steps key e ∧ lifetime ≤ e.age now}.ncard ∧
      (s.evict now).size + s.expiredCount now = s.size) ∧
    (∀ now later document more, now ≤ later →
      ((s.evict now).run more).find? document later = (s.run more).find? document later) := by
  intro s
  have hmem : ∀ key e, (key, e) ∈ s.entries ↔ Lasts lifetime steps key e :=
    fun key e => Store.mem_run h steps
  have hlifetime : s.lifetime = lifetime := Store.lifetime_run _ steps
  have hsize : s.lifetime < UInt64.size := by rwa [hlifetime]
  refine ⟨?_, ?_, ?_, ?_, rfl, fun now => ⟨?_, s.size_evict_add now⟩, ?_⟩
  · intro key e e' he he'
    exact Store.eq_of_mem ((hmem key e).2 he) ((hmem key e').2 he')
  · intro document now v
    simp only [Store.find?_eq_some_iff hsize, hmem, hlifetime]
  · intro document
    simp only [Store.has_iff, hmem]
  · simp only [← hmem]
    exact Store.length_eq_ncard s.keys_nodup
  · rw [Store.expiredCount_eq_length, Store.length_eq_ncard (s.nodup_filter _)]
    simp only [List.mem_filter, Store.isExpired_iff hsize, hmem, hlifetime]
  · intro now later document more hlater
    have hagree := (Store.agreeOnFresh_evict hsize now).run hsize more
    exact hagree.find?_eq (by rwa [Store.lifetime_run]) hlater document

/-- Steps on one document under two spellings, the second of which has the earlier time. -/
def respelledSteps : List (StoreStep Nat) :=
  [.insert "C:\\Lib\\Util.AHK2" 1 10, .insert "util.ahk" 2 3, .evict 7, .erase "other.ahk"]

/-- The second value replaces the first, is found up to its lifetime, and is there after that. -/
theorem run_refines_map_respelled : 5 < UInt64.size ∧
    Lasts 5 respelledSteps (documentKey "lib/UTIL.ahk") ⟨2, 3⟩ ∧
    ((Store.empty 5).run respelledSteps).find? "lib/UTIL.ahk" 7 = some 2 ∧
    ((Store.empty 5).run respelledSteps).find? "lib/UTIL.ahk" 8 = none ∧
    ((Store.empty 5).run respelledSteps).has "lib/UTIL.ahk" = true := by
  have hsize : 5 < UInt64.size := by decide
  have hlasts : Lasts 5 respelledSteps (documentKey "lib/UTIL.ahk") ⟨2, 3⟩ := by
    exact ⟨[.insert "C:\\Lib\\Util.AHK2" 1 10], .insert "util.ahk" 2 3, _, rfl,
      ⟨by decide +kernel, rfl⟩, by decide +kernel⟩
  obtain ⟨hunique, hfind, hhas, -⟩ := run_refines_map hsize respelledSteps
  refine ⟨hsize, hlasts, (hfind _ _ _).2 ⟨_, hlasts, rfl, by decide⟩, ?_, (hhas _).2 ⟨_, hlasts⟩⟩
  refine Option.eq_none_iff_forall_ne_some.2 fun v hv => ?_
  obtain ⟨e, he, -, hage⟩ := (hfind _ _ _).1 hv
  rw [hunique _ _ _ he hlasts] at hage
  exact absurd hage (by decide)

end ScriptOutline
