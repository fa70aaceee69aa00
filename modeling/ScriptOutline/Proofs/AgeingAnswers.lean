/-
**Finding an answer again does not make it younger.**

A session that is asked the same again and again keeps one answer at a time.  The answer grows old
from the moment at which it was put in: a question that finds it changes nothing, neither the answer
nor its time, and so cannot keep it alive.  It is old when it reaches the lifetime, of which the
store compares 64 bits only.  Two equal lists are still two lists if two calls made
them; to tell them apart, each list is signed with the number of the call that made it, and the
signatures travel with the lists through the store.  What carries the proof is an invariant of the
runs: under the key that is asked about stands the list of the latest call that made its own, with
the time at which that call put it in.

Main definitions:

* `Signed`, `Store.map` — values with the calls that made them, and a store with other values;
* `StoreStep.Spares` — a step leaves what is kept under a key as it is;
* `Reply`, `Course` — what a call gives, and a session in the course of a run;
* `Course.Reached` — the courses that a run of calls with the same text, version and key leads to;
* `Course.latestOwn?` — the latest call that made its own list.

Main results:

* `Store.step_map` — the steps of a store do not look at its values;
* `Course.Sound.call`, `Course.Sound.other` — what one step keeps;
* `Course.Reached.sound` — what every run keeps;
* `Course.Sound.answer_eq_iff`, `Course.Sound.kept?_call`, `Course.Sound.call_eq_of_known` — what
  the next call gives, and what it puts in;
* `answers_age_from_storing` — **an answer is found again for its lifetime, counted from the moment
  at which it was put in**;
* `endless_answers_made_anew` — of too long a lifetime nothing is left.
-/

import ScriptOutline.Proofs.TimedMap
import ScriptOutline.Session
import ScriptOutline.Text.Digest

set_option relaxedAutoImplicit false
set_option autoImplicit false

namespace ScriptOutline

/-! ### Stores with other values -/

section Values

variable {α β : Type}

/-- A value with the number of the call that made it; what was there from the start has none. -/
structure Signed (α : Type) where
  value : α
  maker : Option Nat
  deriving DecidableEq, Repr

/-- A value that no call made. -/
def unsigned (value : α) : Signed α :=
  ⟨value, none⟩

/-- An entry with another value. -/
def Entry.map (f : α → β) (e : Entry α) : Entry β :=
  ⟨f e.value, e.time⟩

/-- A step that puts another value in. -/
def StoreStep.map (f : α → β) : StoreStep α → StoreStep β
  | insert document value time => insert document (f value) time
  | erase document => erase document
  | clear => clear
  | evict now => evict now

/-- A step leaves what is kept for a document as it is. -/
def StoreStep.Spares (document : String) (s : Store α) (x : StoreStep α) : Prop :=
  (s.step x).kept? document = s.kept? document

namespace Store

/-- A store with other values. -/
def map (f : α → β) (s : Store α) : Store β :=
  ⟨s.lifetime, s.entries.map fun e => (e.1, e.2.map f), by
    simpa [Function.comp_def] using s.keys_nodup⟩

theorem kept?_map (f : α → β) (s : Store α) (document : String) :
    (s.map f).kept? document = (s.kept? document).map (Entry.map f) :=
  lookup_map_of_injective Function.injective_id (Entry.map f) s.entries (documentKey document)

@[simp] theorem map_unsigned (s : Store α) : (s.map unsigned).map Signed.value = s := by
  simp [map, Entry.map, unsigned, Function.comp_def]

theorem find?_map (f : α → β) (s : Store α) (document : String) (now : Nat) :
    (s.map f).find? document now = (s.find? document now).map f := by
  simp only [find?, kept?_map]
  cases s.kept? document with
  | none => rfl
  | some e =>
      have hexpired : (s.map f).isExpired now (e.map f) = s.isExpired now e := rfl
      simp only [Option.map_some, hexpired]
      split <;> rfl

theorem filter_map (f : α → β) (s : Store α) {p : String × Entry α → Bool}
    {q : String × Entry β → Bool} (h : ∀ e, q (e.1, e.2.map f) = p e) :
    (s.filter p).map f = (s.map f).filter q := by
  simp only [filter, map, Store.mk.injEq, true_and, List.filter_map]
  exact congrArg _ (List.filter_congr fun e _ => (h e).symm)

theorem insert_map (f : α → β) (s : Store α) (document : String) (value : α) (time : Nat) :
    (s.insert document value time).map f = (s.map f).insert document (f value) time := by
  simp only [insert, map, Entry.map, List.map_cons, List.filter_map, Function.comp_def]

/-- The steps of a store do not look at its values. -/
theorem step_map (f : α → β) (s : Store α) (x : StoreStep α) :
    (s.step x).map f = (s.map f).step (x.map f) := by
  cases x with
  | insert document value time => exact s.insert_map f document value time
  | erase document => exact s.filter_map f fun _ => rfl
  | clear => rfl
  | evict now => exact s.filter_map f fun _ => rfl

end Store

end Values

/-! ### Calls -/

variable {δ : Type} [DecidableEq δ]

/-- Two requests with one text, one version and one key. -/
structure Request.Repeats (r asked : Request) : Prop where
  key : documentKey r.document = documentKey asked.document
  text : r.text = asked.text
  version : r.version = asked.version

/-- What a store of signed values knows about a request, with the call that made it. -/
def signedKnown? (digest : String → δ) (store : Store (Signed (Snapshot δ))) (now : Nat)
    (r : Request) : Option (Signed (List Routine)) :=
  match store.find? r.document now with
  | some kept =>
    if kept.value.version = r.version && kept.value.digest = digest r.text then
      some ⟨kept.value.routines, kept.maker⟩
    else none
  | none => none

/-- Without the signatures it is what the session knows. -/
theorem known?_map (digest : String → δ) (store : Store (Signed (Snapshot δ))) (now : Nat)
    (r : Request) :
    known? digest (store.map Signed.value) now r =
      (signedKnown? digest store now r).map Signed.value := by
  simp only [known?, signedKnown?, Store.find?_map]
  cases store.find? r.document now with
  | none => rfl
  | some kept =>
      simp only [Option.map_some]
      split <;> rfl

/-- The list in an entry is known while it is young and made for the same text and version. -/
theorem signedKnown?_of_kept? {digest : String → δ} {store : Store (Signed (Snapshot δ))}
    {r : Request} {e : Entry (Signed (Snapshot δ))} (h : store.kept? r.document = some e)
    (now : Nat) :
    signedKnown? digest store now r =
      if now - e.time < store.lifetime % UInt64.size ∧ e.value.value.version = r.version ∧
          e.value.value.digest = digest r.text then
        some ⟨e.value.value.routines, e.value.maker⟩
      else none := by
  simp only [signedKnown?, Store.find?_of_kept? h]
  by_cases hage : now - e.time < store.lifetime % UInt64.size <;> simp [hage]

/-- A list that is known is the one in the entry of the document. -/
theorem exists_kept_of_signedKnown? {digest : String → δ} {store : Store (Signed (Snapshot δ))}
    {now : Nat} {r : Request} {found : Signed (List Routine)}
    (h : signedKnown? digest store now r = some found) :
    ∃ e, store.kept? r.document = some e ∧ found = ⟨e.value.value.routines, e.value.maker⟩ := by
  cases hk : store.kept? r.document with
  | none => simp [signedKnown?, Store.find?, hk] at h
  | some e =>
      rw [signedKnown?_of_kept? hk] at h
      split at h
      · exact ⟨e, rfl, (Option.some.inj h).symm⟩
      · simp at h

/-- What a call gives: its number, the time at which it puts its list in, and the list. -/
structure Reply where
  number : Nat
  storeTime : Nat
  answer : Signed (List Routine)
  deriving DecidableEq, Repr

/-- Whether a call made its list itself. -/
def Reply.isOwn (x : Reply) : Bool :=
  x.answer.maker = some x.number

/--
A session in the course of a run: what it keeps with the calls that made it, the replies so far, the
latest first, and the latest reading of the clock.
-/
structure Course (δ : Type) where
  session : Session δ
  signed : Store (Signed (Snapshot δ))
  replies : List Reply
  now : Nat

namespace Course

/-- A session with a store, before the first call. -/
def start (digest : String → δ) (store : Store (Snapshot δ)) : Course δ :=
  ⟨⟨digest, some store⟩, store.map unsigned, [], 0⟩

/-- The list that the next call gives: one that is kept, or else one of its own. -/
def answer (c : Course δ) (lookupTime : Nat) (r : Request) : Signed (List Routine) :=
  (signedKnown? c.session.digest c.signed lookupTime r).getD ⟨r.routines, some c.replies.length⟩

/-- A call, that looks up at one time and, if that finds nothing, puts in at another. -/
def call (c : Course δ) (lookupTime storeTime : Nat) (r : Request) : Course δ where
  session := (c.session.analyze lookupTime storeTime r).2
  signed :=
    match signedKnown? c.session.digest c.signed lookupTime r with
    | some _ => c.signed
    | none =>
      c.signed.insert r.document
        ⟨⟨r.version, c.session.digest r.text, r.routines⟩, some c.replies.length⟩ storeTime
  replies := ⟨c.replies.length, storeTime, c.answer lookupTime r⟩ :: c.replies
  now := storeTime

/-- Any other step on the store. -/
def other (c : Course δ) (x : StoreStep (Snapshot δ)) : Course δ :=
  { c with
    session := ⟨c.session.digest, c.session.store.map (·.step x)⟩
    signed := c.signed.step (x.map unsigned) }

/-- The reply of the latest call that made its own list. -/
def latestOwn? (c : Course δ) : Option Reply :=
  c.replies.find? Reply.isOwn

/--
The courses that a run leads to in which the clock never runs backwards, all calls repeat one
request, and every other step leaves what is kept for it as it is.
-/
inductive Reached (digest : String → δ) (store : Store (Snapshot δ)) (asked : Request) :
    Course δ → Prop
  | start : Reached digest store asked (start digest store)
  | call {c : Course δ} {r : Request} {lookupTime storeTime : Nat}
      (reached : Reached digest store asked c) (repeats : r.Repeats asked)
      (later : c.now ≤ lookupTime) (stored : lookupTime ≤ storeTime) :
      Reached digest store asked (c.call lookupTime storeTime r)
  | other {c : Course δ} {x : StoreStep (Snapshot δ)} (reached : Reached digest store asked c)
      (spares : (x.map unsigned).Spares asked.document c.signed) :
      Reached digest store asked (c.other x)

/-! ### What a run keeps -/

/-- The entry that a call puts in. -/
def ownEntry (digest : String → δ) (asked : Request) (own : Reply) : Entry (Signed (Snapshot δ)) :=
  ⟨⟨⟨asked.version, digest asked.text, own.answer.value⟩, own.answer.maker⟩, own.storeTime⟩

/--
The session keeps what the signed store holds.  Under the key that is asked about stands the list of
the latest call that made its own, with its time, or else one that no call made.
-/
structure Sound (digest : String → δ) (lifetime : Nat) (asked : Request) (c : Course δ) : Prop where
  session : c.session = ⟨digest, some (c.signed.map Signed.value)⟩
  lifetime : c.signed.lifetime = lifetime
  number_lt : ∀ x ∈ c.replies, x.number < c.replies.length
  kept : ∀ own, c.latestOwn? = some own →
    c.signed.kept? asked.document = some (ownEntry digest asked own) ∧ own.storeTime ≤ c.now
  unmade : c.latestOwn? = none → ∀ e, c.signed.kept? asked.document = some e → e.value.maker = none

omit [DecidableEq δ] in
theorem sound_start (digest : String → δ) (store : Store (Snapshot δ)) (asked : Request) :
    (start digest store).Sound digest store.lifetime asked where
  session := by simp [start]
  lifetime := rfl
  number_lt := by simp [start]
  kept := by simp [latestOwn?, start]
  unmade := by
    intro _ e he
    rw [start, Store.kept?_map] at he
    obtain ⟨e', -, rfl⟩ := Option.map_eq_some_iff.1 he
    rfl

variable {digest : String → δ} {lifetime : Nat} {asked : Request} {c : Course δ}

omit [DecidableEq δ] in
theorem Sound.digest_eq (h : c.Sound digest lifetime asked) : c.session.digest = digest := by
  rw [h.session]

/-- What the session answers and keeps is what the signed store tells, without the signatures. -/
theorem Sound.analyze_eq (h : c.Sound digest lifetime asked) (lookupTime storeTime : Nat)
    (r : Request) :
    c.session.analyze lookupTime storeTime r =
      ((c.answer lookupTime r).value,
        ⟨digest, some ((c.call lookupTime storeTime r).signed.map Signed.value)⟩) := by
  simp only [Session.analyze, answer, call, h.session, known?_map]
  cases signedKnown? digest c.signed lookupTime r with
  | some found => rfl
  | none => simp only [Option.map_none, Option.getD_none, remember, Store.insert_map]

omit [DecidableEq δ] in
/-- The latest call that made its own list is one of the calls before the next one. -/
theorem Sound.latestOwn?_spec (h : c.Sound digest lifetime asked) {own : Reply}
    (hown : c.latestOwn? = some own) :
    own.answer.maker = some own.number ∧ own.number < c.replies.length := by
  refine ⟨?_, h.number_lt own (List.mem_of_find?_eq_some hown)⟩
  simpa [Reply.isOwn] using List.find?_some hown

/-- A list that is found was not made by the next call. -/
theorem Sound.maker_ne (h : c.Sound digest lifetime asked) {r : Request} (hr : r.Repeats asked)
    {now : Nat} {found : Signed (List Routine)}
    (hfound : signedKnown? digest c.signed now r = some found) :
    found.maker ≠ some c.replies.length := by
  obtain ⟨e, he, rfl⟩ := exists_kept_of_signedKnown? hfound
  rw [c.signed.kept?_congr hr.key] at he
  cases hown : c.latestOwn? with
  | none => simp [h.unmade hown e he]
  | some own =>
      obtain ⟨hkept, -⟩ := h.kept own hown
      obtain ⟨hnumber, hlt⟩ := h.latestOwn?_spec hown
      rw [he, Option.some.injEq] at hkept
      rw [hkept]
      simp only [ownEntry, hnumber, ne_eq, Option.some.injEq]
      omega

/-- A call keeps all of it. -/
theorem Sound.call (h : c.Sound digest lifetime asked) {r : Request} (hr : r.Repeats asked)
    {lookupTime storeTime : Nat} (hlater : c.now ≤ lookupTime) (hstored : lookupTime ≤ storeTime) :
    (c.call lookupTime storeTime r).Sound digest lifetime asked := by
  have hsession : (c.call lookupTime storeTime r).session =
      ⟨digest, some ((c.call lookupTime storeTime r).signed.map Signed.value)⟩ :=
    congrArg Prod.snd (h.analyze_eq lookupTime storeTime r)
  have hnumber : ∀ x ∈ (c.call lookupTime storeTime r).replies,
      x.number < (c.call lookupTime storeTime r).replies.length := by
    intro x hx
    simp only [Course.call, List.length_cons]
    rcases List.mem_cons.1 hx with rfl | hx
    · exact Nat.lt_succ_self _
    · exact Nat.lt_succ_of_lt (h.number_lt x hx)
  have hdigest := h.digest_eq
  cases hfound : signedKnown? digest c.signed lookupTime r with
  | some found =>
      -- the list was made before, so that the latest call that made its own is the same
      have hsigned : (c.call lookupTime storeTime r).signed = c.signed := by
        simp only [Course.call, hdigest, hfound]
      have hlatest : (c.call lookupTime storeTime r).latestOwn? = c.latestOwn? := by
        have hne := h.maker_ne hr hfound
        simp [latestOwn?, Course.call, answer, hdigest, hfound, Reply.isOwn, hne]
      refine ⟨hsession, hsigned ▸ h.lifetime, hnumber, ?_, ?_⟩
      · intro own hown
        rw [hlatest] at hown
        obtain ⟨hkept, htime⟩ := h.kept own hown
        exact ⟨hsigned ▸ hkept, htime.trans (hlater.trans hstored)⟩
      · rw [hlatest, hsigned]
        exact h.unmade
  | none =>
      have hlatest : (c.call lookupTime storeTime r).latestOwn? =
          some ⟨c.replies.length, storeTime, ⟨r.routines, some c.replies.length⟩⟩ := by
        simp [latestOwn?, Course.call, answer, hdigest, hfound, Reply.isOwn]
      refine ⟨hsession, ?_, hnumber, ?_, by simp [hlatest]⟩
      · simp only [Course.call, hdigest, hfound]
        exact h.lifetime
      · intro own hown
        rw [hlatest, Option.some.injEq] at hown
        subst hown
        refine ⟨?_, le_rfl⟩
        simp only [Course.call, hdigest, hfound, Store.kept?_insert, hr.key, if_true, ownEntry,
          hr.text, hr.version]

omit [DecidableEq δ] in
/-- So does a step that leaves what is kept for the document as it is. -/
theorem Sound.other (h : c.Sound digest lifetime asked) {x : StoreStep (Snapshot δ)}
    (hx : (x.map unsigned).Spares asked.document c.signed) :
    (c.other x).Sound digest lifetime asked where
  session := by
    have hmap : (x.map unsigned).map Signed.value = x := by cases x <;> rfl
    simp [Course.other, h.session, Store.step_map, hmap]
  lifetime := (Store.lifetime_step _ _).trans h.lifetime
  number_lt := h.number_lt
  kept := by
    intro own hown
    rw [show (c.other x).signed.kept? asked.document = c.signed.kept? asked.document from hx]
    exact h.kept own hown
  unmade := by
    intro hnone e he
    rw [show (c.other x).signed.kept? asked.document = c.signed.kept? asked.document from hx] at he
    exact h.unmade hnone e he

/-- Every run keeps all of it. -/
theorem Reached.sound {store : Store (Snapshot δ)} (h : Reached digest store asked c) :
    c.Sound digest store.lifetime asked := by
  induction h with
  | start => exact sound_start digest store asked
  | call _ repeats later stored ih => exact ih.call repeats later stored
  | other _ spares ih => exact ih.other spares

/-! ### What the next call gives -/

/-- The list of the latest call that made its own is known while it is young. -/
theorem Sound.signedKnown?_eq (h : c.Sound digest lifetime asked) {r : Request}
    (hr : r.Repeats asked) {own : Reply} (hown : c.latestOwn? = some own) (now : Nat) :
    signedKnown? digest c.signed now r =
      if now - own.storeTime < lifetime % UInt64.size then some own.answer else none := by
  obtain ⟨hkept, -⟩ := h.kept own hown
  rw [← c.signed.kept?_congr hr.key] at hkept
  have hknown : signedKnown? digest c.signed now r = _ := signedKnown?_of_kept? hkept now
  simpa only [ownEntry, hr.text, hr.version, and_self, and_true, h.lifetime] using hknown

/-- A call makes its own list exactly if none is known. -/
theorem Sound.maker_eq_iff (h : c.Sound digest lifetime asked) {r : Request}
    (hr : r.Repeats asked) (lookupTime : Nat) :
    (c.answer lookupTime r).maker = some c.replies.length ↔
      signedKnown? digest c.signed lookupTime r = none := by
  cases hfound : signedKnown? digest c.signed lookupTime r with
  | some found =>
      have hmaker := h.maker_ne hr hfound
      simpa [answer, h.digest_eq, hfound] using hmaker
  | none => simp [answer, h.digest_eq, hfound]

/-- The list of the latest call that made its own is given while it is young. -/
theorem Sound.answer_eq_iff (h : c.Sound digest lifetime asked) {r : Request}
    (hr : r.Repeats asked) {own : Reply} (hown : c.latestOwn? = some own) (lookupTime : Nat) :
    c.answer lookupTime r = own.answer ↔
      lookupTime - own.storeTime < lifetime % UInt64.size := by
  have hknown := h.signedKnown?_eq hr hown lookupTime
  by_cases hyoung : lookupTime - own.storeTime < lifetime % UInt64.size
  · rw [if_pos hyoung] at hknown
    simp [answer, h.digest_eq, hknown, hyoung]
  · rw [if_neg hyoung] at hknown
    have hmaker := (h.maker_eq_iff hr lookupTime).2 hknown
    obtain ⟨hnumber, hlt⟩ := h.latestOwn?_spec hown
    refine iff_of_false ?_ hyoung
    intro heq
    rw [heq, hnumber, Option.some.injEq] at hmaker
    omega

/-- A call that makes its own list puts it in, and leaves what is kept under other keys. -/
theorem Sound.kept?_call (h : c.Sound digest lifetime asked) {r : Request} {lookupTime : Nat}
    (hnone : signedKnown? digest c.signed lookupTime r = none) (storeTime : Nat)
    (document : String) :
    (c.call lookupTime storeTime r).signed.kept? document =
      if documentKey document = documentKey r.document then
        some ⟨⟨⟨r.version, digest r.text, r.routines⟩, some c.replies.length⟩, storeTime⟩
      else c.signed.kept? document := by
  simp [Course.call, h.digest_eq, hnone, Store.kept?_insert]

/-- A call that makes no list changes nothing. -/
theorem Sound.call_eq_of_known (h : c.Sound digest lifetime asked) {r : Request}
    {lookupTime : Nat} {found : Signed (List Routine)}
    (hfound : signedKnown? digest c.signed lookupTime r = some found) (storeTime : Nat) :
    (c.call lookupTime storeTime r).session = c.session ∧
      (c.call lookupTime storeTime r).signed = c.signed := by
  have hsigned : (c.call lookupTime storeTime r).signed = c.signed := by
    simp [Course.call, h.digest_eq, hfound]
  refine ⟨?_, hsigned⟩
  rw [h.session, ← hsigned]
  exact congrArg Prod.snd (h.analyze_eq lookupTime storeTime r)

end Course

/--
**Age is counted from storing.**  After any run of calls with one text, version and key, by a clock
that never runs backwards and with no other step on what is kept for them, the next call gives the
very list of the latest call that made its own exactly while the time since that call put it in is
below what 64 bits hold of the lifetime; this is the lifetime itself where that fits.  Otherwise it
makes a new list, which replaces the entry and has the new time.  A call that makes none changes
nothing at all.
-/
theorem answers_age_from_storing {digest : String → δ} {store : Store (Snapshot δ)}
    {asked r : Request} {c : Course δ} (h : c.Reached digest store asked) (hr : r.Repeats asked)
    {lookupTime : Nat} (hlater : c.now ≤ lookupTime) (storeTime : Nat) :
    let answer := c.answer lookupTime r
    let next := c.call lookupTime storeTime r
    c.session = ⟨digest, some (c.signed.map Signed.value)⟩ ∧
      c.session.analyze lookupTime storeTime r = (answer.value, next.session) ∧
      (∀ own, c.latestOwn? = some own → own.storeTime ≤ lookupTime ∧
        (answer = own.answer ↔ lookupTime - own.storeTime < store.lifetime % UInt64.size) ∧
        (store.lifetime < UInt64.size →
          (answer = own.answer ↔ lookupTime - own.storeTime < store.lifetime)) ∧
        (answer ≠ own.answer → answer.maker = some c.replies.length)) ∧
      (answer.maker = some c.replies.length →
        answer.value = r.routines ∧ ∀ document, next.signed.kept? document =
          if documentKey document = documentKey r.document then
            some ⟨⟨⟨r.version, digest r.text, answer.value⟩, answer.maker⟩, storeTime⟩
          else c.signed.kept? document) ∧
      (answer.maker ≠ some c.replies.length →
        next.session = c.session ∧ next.signed = c.signed) := by
  intro answer next
  have hsound := h.sound
  have hanalyze := hsound.analyze_eq lookupTime storeTime r
  have hmade := hsound.maker_eq_iff hr lookupTime
  refine ⟨hsound.session, Prod.ext (by rw [hanalyze]) rfl, ?_, ?_, ?_⟩
  · intro own hown
    obtain ⟨-, htime⟩ := hsound.kept own hown
    have hage := hsound.answer_eq_iff hr hown lookupTime
    refine ⟨htime.trans hlater, hage, ?_, ?_⟩
    · intro hfits
      rwa [Nat.mod_eq_of_lt hfits] at hage
    · intro hother
      exact hmade.2 ((hsound.signedKnown?_eq hr hown lookupTime).trans (if_neg (mt hage.2 hother)))
  · intro hmaker
    have hnone := hmade.1 hmaker
    have hvalue : answer.value = r.routines := by
      simp [answer, Course.answer, hsound.digest_eq, hnone]
    refine ⟨hvalue, fun document => ?_⟩
    rw [hvalue, hmaker]
    exact hsound.kept?_call hnone storeTime document
  · intro hmaker
    obtain ⟨found, hfound⟩ := Option.ne_none_iff_exists'.1 (mt hmade.2 hmaker)
    exact hsound.call_eq_of_known hfound storeTime

/-- A request, and the same one under another spelling of its document. -/
def libraryRequest (document : String) : Request :=
  ⟨document, "F() \x7b\n\x7d", 1⟩

/-- One call, which puts its list in at the time 12, and a step on another document. -/
def libraryCourse : Course String :=
  ((Course.start id (Store.empty 5)).call 10 12 (libraryRequest "lib.ahk")).other
    (.insert "b.ahk" ⟨1, "", []⟩ 13)

/-- The list is found at the age of four, and not at that of five, the lifetime. -/
theorem answers_age_from_storing_library :
    let asked := libraryRequest "lib.ahk"
    let r := libraryRequest "C:\\LIB.AHK2"
    let own : Reply := ⟨0, 12, ⟨asked.routines, some 0⟩⟩
    libraryCourse.Reached id (Store.empty 5) asked ∧ r.Repeats asked ∧ libraryCourse.now ≤ 16 ∧
      libraryCourse.latestOwn? = some own ∧
      libraryCourse.answer 16 r = own.answer ∧
      (libraryCourse.call 16 16 r).signed = libraryCourse.signed ∧
      (libraryCourse.answer 17 r).maker = some 1 ∧
      ((libraryCourse.call 17 20 r).signed.kept? "lib.ahk").map Entry.time = some 20 := by
  intro asked r own
  have hreached : libraryCourse.Reached id (Store.empty 5) asked := by
    refine .other (.call .start ⟨rfl, rfl, rfl⟩ (by decide) (by decide)) ?_
    have hkey : documentKey "lib.ahk" ≠ documentKey "b.ahk" := by decide +kernel
    simp [StoreStep.Spares, StoreStep.map, Store.step, Store.kept?_insert, asked, libraryRequest,
      hkey]
  have hrepeats : r.Repeats asked := ⟨by decide +kernel, rfl, rfl⟩
  have hown : libraryCourse.latestOwn? = some own := rfl
  obtain ⟨-, -, hyoung, -, hsame⟩ :=
    answers_age_from_storing hreached hrepeats (show libraryCourse.now ≤ 16 by decide) 16
  obtain ⟨-, -, hold, hnew, -⟩ :=
    answers_age_from_storing hreached hrepeats (show libraryCourse.now ≤ 17 by decide) 20
  obtain ⟨-, -, hiff, -⟩ := hyoung own hown
  have hfound : libraryCourse.answer 16 r = own.answer := (hiff (by decide)).2 (by decide)
  obtain ⟨-, -, hiff', hanew⟩ := hold own hown
  have hmade : (libraryCourse.answer 17 r).maker = some 1 :=
    hanew (mt (hiff' (by decide)).1 (by decide))
  have hkept := (hnew hmade).2 "lib.ahk"
  rw [if_pos (show documentKey "lib.ahk" = documentKey r.document from hrepeats.key.symm)] at hkept
  refine ⟨hreached, hrepeats, by decide, hown, hfound, (hsame ?_).2, hmade, by simp [hkept]⟩
  rw [hfound]
  decide

/-- One call, which finds nothing and puts its list in at once, with a lifetime of 2⁶¹ seconds. -/
def endlessCourse : Course UInt64 :=
  (Course.start textDigest (Store.empty (1000 * 2305843009213693952))).call 7 7
    (libraryRequest "lib.ahk")

/-- A list of the age zero is not found again, though the lifetime is 2⁶¹ seconds. -/
theorem endless_answers_made_anew :
    let asked := libraryRequest "lib.ahk"
    let own : Reply := ⟨0, 7, ⟨asked.routines, some 0⟩⟩
    endlessCourse.Reached textDigest (Store.empty (1000 * 2305843009213693952)) asked ∧
      endlessCourse.now ≤ 7 ∧ endlessCourse.latestOwn? = some own ∧
      7 - own.storeTime < 1000 * 2305843009213693952 ∧
      endlessCourse.answer 7 asked ≠ own.answer ∧
      (endlessCourse.answer 7 asked).maker = some 1 := by
  intro asked own
  have hreached :
      endlessCourse.Reached textDigest (Store.empty (1000 * 2305843009213693952)) asked :=
    .call .start ⟨rfl, rfl, rfl⟩ (by decide) (by decide)
  have hkept : endlessCourse.signed.kept? asked.document =
      some ⟨⟨⟨asked.version, textDigest asked.text, asked.routines⟩, some 0⟩, 7⟩ :=
    (Store.kept?_insert _ _ _ _ _).trans (if_pos rfl)
  have hexpired : signedKnown? textDigest endlessCourse.signed 7 asked = none := by
    rw [signedKnown?_of_kept? hkept, if_neg]
    exact fun hyoung => Nat.not_lt_zero _ hyoung.1
  have hanswer : endlessCourse.answer 7 asked = ⟨asked.routines, some 1⟩ := by
    have hdigest : endlessCourse.session.digest = textDigest := rfl
    rw [Course.answer, hdigest, hexpired]
    rfl
  refine ⟨hreached, le_rfl, rfl, by decide, ?_, by rw [hanswer]⟩
  rw [hanswer]
  simp [own]

end ScriptOutline
