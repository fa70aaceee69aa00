/-
**How long the settings keep results.**

The settings give the lifetime of results in seconds; the store compares ages in milliseconds, as
numbers of 64 bits.  A lifetime of more than half a billion years does not fit these, and only its
last 64 bits count: so long a lifetime may even be none at all.

Main definitions:

* `Store.HandsOutFor` — a store hands values out for a number of milliseconds;
* `Store.LastsAsLongAs` — a store hands out whatever another one does;
* `lastingSettings` — settings that keep results for a number of seconds.

Main results:

* `Store.handsOutFor` — how long any store hands values out;
* `Store.handsOutFor_iff` — a store keeps to a lifetime just if it compares all of it;
* `Store.lastsAsLongAs_iff` — which of two stores hands values out for longer;
* `configured_lifetime` — **the settings are kept to just if their lifetime fits 64 bits**;
* `endless_lifetime_expires` — a lifetime of 2⁶¹ seconds is none at all.
-/

import ScriptOutline.Proofs.TimedMap
import ScriptOutline.Settings.Check

set_option relaxedAutoImplicit false
set_option autoImplicit false

namespace ScriptOutline

namespace Store

variable {α : Type}

/--
A store hands values out for a number of milliseconds: whatever came before, a value that is put in
is found, under every spelling of its document, while its age is below that number, and not after.
Times have 64 bits.
-/
def HandsOutFor (s : Store α) (duration : Nat) : Prop :=
  ∀ (steps : List (StoreStep α)) (document other : String) (value : α) (time now : Nat),
    documentKey other = documentKey document → time < UInt64.size → now < UInt64.size →
    ((s.run steps).insert document value time).find? other now =
      if max 0 ((now : Int) - time) < duration then some value else none

/-- A store hands a value out whenever another one, that got it at the same time, does. -/
def LastsAsLongAs (s t : Store α) : Prop :=
  ∀ (document : String) (value : α) (time now : Nat), time < UInt64.size → now < UInt64.size →
    (t.insert document value time).find? document now = some value →
    (s.insert document value time).find? document now = some value

/-- A store hands values out for its lifetime, cut to 64 bits. -/
theorem handsOutFor (s : Store α) : s.HandsOutFor (s.lifetime % UInt64.size) := by
  intro steps document other value time now hkey _ _
  rw [find?_insert _ hkey, lifetime_run]
  have hage : max 0 ((now : Int) - time) < (s.lifetime % UInt64.size : Nat) ↔
      now - time < s.lifetime % UInt64.size := by omega
  simp only [hage]

/-- It keeps to the whole lifetime just if that fits. -/
theorem handsOutFor_iff [Nonempty α] (s : Store α) :
    s.HandsOutFor s.lifetime ↔ s.lifetime < UInt64.size := by
  constructor
  · intro h
    by_contra hlong
    obtain ⟨value⟩ := ‹Nonempty α›
    -- at the age at which the cut lifetime ends, the whole one goes on
    have hpos : 0 < UInt64.size := by decide
    have hcut : s.lifetime % UInt64.size < UInt64.size := Nat.mod_lt _ hpos
    have hwhole := h [] "" "" value 0 (s.lifetime % UInt64.size) rfl hpos hcut
    have hends := s.handsOutFor [] "" "" value 0 (s.lifetime % UInt64.size) rfl hpos hcut
    rw [hends, if_neg (by omega), if_pos (by omega)] at hwhole
    simp at hwhole
  · intro h
    have hcut := s.handsOutFor
    rwa [Nat.mod_eq_of_lt h] at hcut

/-- Of two stores the one with the longer lifetime, cut to 64 bits, hands values out for longer. -/
theorem lastsAsLongAs_iff [Nonempty α] (s t : Store α) :
    s.LastsAsLongAs t ↔ t.lifetime % UInt64.size ≤ s.lifetime % UInt64.size := by
  constructor
  · intro h
    by_contra hshort
    obtain ⟨value⟩ := ‹Nonempty α›
    have hpos : 0 < UInt64.size := by decide
    have hcut : s.lifetime % UInt64.size < UInt64.size := Nat.mod_lt _ hpos
    have hfound := h "" value 0 (s.lifetime % UInt64.size) hpos hcut
    rw [find?_insert t rfl, find?_insert s rfl, if_pos (by omega), if_neg (by omega)] at hfound
    simp at hfound
  · intro h document value time now _ _ hfound
    rw [find?_insert _ rfl] at hfound ⊢
    split at hfound
    · rw [if_pos (by omega)]
    · simp at hfound

end Store

/-! ### The lifetime that is set -/

/-- Settings without a fault that keep results keep them for some time. -/
theorem Settings.seconds_pos {s : Settings} (h : s.error? = none) (hkept : s.cache.enabled = true) :
    0 < s.cache.seconds.toNat := by
  by_contra hzero
  have hseconds : s.cache.seconds = 0 := UInt64.toNat.inj (by simpa using hzero)
  simp only [Settings.error?, hkept, hseconds, Bool.true_and, decide_true, if_true] at h
  split at h <;> simp at h

/-- A session with a store has one that starts empty, with the lifetime that is set. -/
theorem Settings.lifetime_of_session {δ : Type} {s : Settings} {digest : String → δ}
    {store : Store (Snapshot δ)} (h : s.session digest = ⟨digest, some store⟩) :
    store.lifetime = 1000 * s.cache.seconds.toNat := by
  simp only [Settings.session, Settings.lifetime?] at h
  split at h
  · simp only [Option.map_some, Session.mk.injEq, true_and, Option.some.injEq] at h
    exact congrArg Store.lifetime h.symm
  · simp at h

/--
**The lifetime that is set is kept to just if it fits 64 bits.**  Settings without a fault that keep
results give a session a store that hands them out for the seconds that are set, in milliseconds,
but only for what 64 bits hold of these.  So it hands them out for the time that is set exactly if
that is below 2⁶⁴ milliseconds, and a longer lifetime makes results expire earlier exactly where
less is left of it.
-/
theorem configured_lifetime {δ : Type} (digest : String → δ) {s : Settings}
    (hvalid : s.error? = none) (hkept : s.cache.enabled = true) :
    ∃ store : Store (Snapshot δ), s.session digest = ⟨digest, some store⟩ ∧
      0 < s.cache.seconds.toNat ∧
      store.HandsOutFor (1000 * s.cache.seconds.toNat % UInt64.size) ∧
      (store.HandsOutFor (1000 * s.cache.seconds.toNat) ↔
        1000 * s.cache.seconds.toNat < UInt64.size) ∧
      ∀ (other : Settings) (kept : Store (Snapshot δ)),
        other.session digest = ⟨digest, some kept⟩ →
        (store.LastsAsLongAs kept ↔
          1000 * other.cache.seconds.toNat % UInt64.size ≤
            1000 * s.cache.seconds.toNat % UInt64.size) := by
  have hsession :
      s.session digest = ⟨digest, some (Store.empty (1000 * s.cache.seconds.toNat))⟩ := by
    simp [Settings.session, Settings.lifetime?, hkept]
  have : Nonempty (Snapshot δ) := ⟨⟨0, digest "", []⟩⟩
  refine ⟨_, hsession, Settings.seconds_pos hvalid hkept, Store.handsOutFor _,
    Store.handsOutFor_iff _, ?_⟩
  intro other kept hother
  rw [Store.lastsAsLongAs_iff, Settings.lifetime_of_session hother]
  rfl

/-- Settings that keep results for a number of seconds. -/
def lastingSettings (seconds : UInt64) : Settings :=
  { cache := { seconds } }

/-- The longest lifetime that is kept to: results are found up to its last millisecond. -/
theorem configured_lifetime_longest :
    (lastingSettings 18446744073709551).error? = none ∧
    ∃ store, (lastingSettings 18446744073709551).session id = ⟨id, some store⟩ ∧
      ∀ value : Snapshot String,
        (store.insert "lib.ahk" value 9).find? "lib.ahk" 18446744073709551008 = some value ∧
        (store.insert "lib.ahk" value 9).find? "lib.ahk" 18446744073709551009 = none := by
  have hvalid : (lastingSettings 18446744073709551).error? = none := by decide
  obtain ⟨store, hsession, -, -, hfits, -⟩ := configured_lifetime id hvalid rfl
  have hkeeps := hfits.2 (by decide)
  refine ⟨hvalid, store, hsession, fun value => ⟨?_, ?_⟩⟩
  · exact hkeeps [] _ _ value 9 18446744073709551008 rfl (by decide) (by decide)
  · exact hkeeps [] _ _ value 9 18446744073709551009 rfl (by decide) (by decide)

/--
Of 2⁶¹ seconds nothing is left: a result is not found at the very time at which it was put in,
though its age of zero is below the lifetime, and though it would be found with a lifetime of one
second.
-/
theorem endless_lifetime_expires :
    (lastingSettings 2305843009213693952).error? = none ∧
    ∃ long short : Store (Snapshot String),
      (lastingSettings 2305843009213693952).session id = ⟨id, some long⟩ ∧
      (lastingSettings 1).session id = ⟨id, some short⟩ ∧
      max 0 ((7 : Int) - 7) < 1000 * (2305843009213693952 : UInt64).toNat ∧
      (long.insert "lib.ahk" ⟨0, "", []⟩ 7).find? "lib.ahk" 7 = none ∧
      (short.insert "lib.ahk" ⟨0, "", []⟩ 7).find? "lib.ahk" 7 = some ⟨0, "", []⟩ := by
  refine ⟨by decide, Store.empty (1000 * 2305843009213693952), Store.empty 1000, rfl, rfl,
    by decide, ?_, ?_⟩
  · exact Store.find?_insert _ rfl _ 7 7
  · exact Store.find?_insert _ rfl _ 7 7

end ScriptOutline
