/-
**A store never changes an answer.**

Sessions that share a store take two steps for a question: they look it up, and if that finds
nothing, they put the answer in later.  Between the two anything may happen: other sessions look up
and put in, entries are removed, expire, or are replaced under the same key.  What carries all
proofs is an invariant of the store: every value in it is the analysis of one of the texts that were
asked about.  Where the digest tells these texts apart, a value that is found is the answer that is
asked for.

Main definitions:

* `TellsApart` — a digest takes no two of some texts for the same;
* `Store.Faithful` — every value of a store is the analysis of one of some texts;
* `SharedStep`, `Exchange`, `Exchange.run` — the steps on a shared store, and what they lead to;
* `Context.textsFor` — the texts that a question to the program is about.

Main results:

* `Exchange.run_sound` — the invariant holds after every run of steps;
* `Exchange.run_perm` — no question is lost: each is answered or still pending;
* `Session.analyze_eq_run` — a session that is not disturbed takes just these two steps;
* `sharing_transparent` — **answers do not depend on the store**, in any order of steps, and the
  program answers the same with and without one.
-/

import ScriptOutline.Program

set_option relaxedAutoImplicit false
set_option autoImplicit false

namespace ScriptOutline

variable {δ : Type} [DecidableEq δ]

/-! ### What a store may hold -/

/-- A digest tells texts apart if it takes no two of them for the same. -/
def TellsApart (digest : String → δ) (texts : List String) : Prop :=
  ∀ a ∈ texts, ∀ b ∈ texts, digest a = digest b → a = b

instance (digest : String → δ) (texts : List String) : Decidable (TellsApart digest texts) :=
  inferInstanceAs (Decidable (∀ a ∈ texts, ∀ b ∈ texts, digest a = digest b → a = b))

/-- A snapshot is the analysis of one of the given texts, at the version it carries. -/
def Snapshot.IsOf (digest : String → δ) (texts : List String) (kept : Snapshot δ) : Prop :=
  ∃ text ∈ texts, kept.digest = digest text ∧ kept.routines = routinesOf text.toList kept.version

/-- Every value of a store is the analysis of one of the given texts. -/
def Store.Faithful (digest : String → δ) (texts : List String) (store : Store (Snapshot δ)) :
    Prop :=
  ∀ e ∈ store.entries, e.2.value.IsOf digest texts

namespace Store

omit [DecidableEq δ]

variable {digest : String → δ} {texts : List String} {store : Store (Snapshot δ)}

theorem faithful_empty (lifetime : Nat) : (empty lifetime : Store (Snapshot δ)).Faithful digest
    texts := by
  intro e he
  simp [empty] at he

theorem Faithful.filter (h : store.Faithful digest texts)
    (p : String × Entry (Snapshot δ) → Bool) : (store.filter p).Faithful digest texts := by
  intro e he
  exact h e (List.mem_filter.1 he).1

/-- Putting in the analysis of one of the texts keeps a store faithful. -/
theorem Faithful.remember (h : store.Faithful digest texts) (time : Nat) {r : Request}
    (hr : r.text ∈ texts) :
    (remember digest store time r r.routines).Faithful digest texts := by
  intro e he
  rcases List.mem_cons.1 he with rfl | he
  · exact ⟨r.text, hr, rfl, rfl⟩
  · exact h e (List.mem_filter.1 he).1

/-- A value that is handed out is one of the values of the store. -/
theorem mem_of_find? {document : String} {now : Nat} {kept : Snapshot δ}
    (h : store.find? document now = some kept) : ∃ e ∈ store.entries, e.2.value = kept := by
  unfold find? at h
  cases hk : store.kept? document with
  | none => simp [hk] at h
  | some entry =>
      simp only [hk] at h
      split at h
      · simp at h
      · obtain ⟨rfl⟩ := h
        obtain ⟨before, after, hentries, -⟩ := List.lookup_eq_some_iff.1 hk
        exact ⟨(documentKey document, entry), by simp [hentries], rfl⟩

end Store

/-- What a faithful store knows about a request is what the request asks for. -/
theorem routines_of_known? {digest : String → δ} {texts : List String}
    {store : Store (Snapshot δ)} (h : store.Faithful digest texts) (hd : TellsApart digest texts)
    {now : Nat} {r : Request} (hr : r.text ∈ texts) {routines : List Routine}
    (hk : known? digest store now r = some routines) : routines = r.routines := by
  unfold known? at hk
  cases hf : store.find? r.document now with
  | none => simp [hf] at hk
  | some kept =>
      simp only [hf] at hk
      split at hk
      · next hmatch =>
          obtain ⟨rfl⟩ := hk
          simp only [Bool.and_eq_true, decide_eq_true_eq] at hmatch
          obtain ⟨hversion, hdigest⟩ := hmatch
          obtain ⟨e, he, rfl⟩ := Store.mem_of_find? hf
          obtain ⟨text, htext, hdigest', hroutines⟩ := h e he
          have htexts : text = r.text := hd text htext r.text hr (by rw [← hdigest', hdigest])
          rw [hroutines, hversion, htexts]
          rfl
      · simp at hk

/-! ### Steps of sessions that share a store -/

/-- One step on a shared store. -/
inductive SharedStep where
  /-- A session looks a request up. -/
  | lookup (r : Request) (now : Nat)
  /-- A session that looked a request up in vain puts the answer in. -/
  | finish (r : Request) (time : Nat)
  | erase (document : String)
  | clear
  | evict (now : Nat)
  deriving DecidableEq, Repr

/-- The request that a step starts to answer. -/
def SharedStep.request? : SharedStep → Option Request
  | lookup r _ => some r
  | _ => none

/-- A request with the routines that were answered to it. -/
structure Answer where
  request : Request
  routines : List Routine
  deriving DecidableEq, Repr

/--
Sessions over a shared store: the store, the requests that were looked up in vain and whose answers
are not yet put in, and the answers given so far, the latest first.
-/
structure Exchange (δ : Type) where
  store : Store (Snapshot δ)
  pending : List Request
  answers : List Answer

namespace Exchange

/-- Nothing was asked yet, and the store is empty. -/
def start (lifetime : Nat) : Exchange δ :=
  ⟨Store.empty lifetime, [], []⟩

/-- What a step leads to.  Only a pending request can be finished. -/
def step (digest : String → δ) (x : Exchange δ) : SharedStep → Exchange δ
  | .lookup r now =>
    match known? digest x.store now r with
    | some routines => { x with answers := ⟨r, routines⟩ :: x.answers }
    | none => { x with pending := r :: x.pending }
  | .finish r time =>
    if r ∈ x.pending then
      ⟨remember digest x.store time r r.routines, x.pending.erase r,
        ⟨r, r.routines⟩ :: x.answers⟩
    else x
  | .erase document => { x with store := x.store.erase document }
  | .clear => { x with store := x.store.clear }
  | .evict now => { x with store := x.store.evict now }

/-- What steps lead to, one after the other. -/
def run (digest : String → δ) (x : Exchange δ) (steps : List SharedStep) : Exchange δ :=
  steps.foldl (step digest) x

/--
The store is faithful to the texts, the pending requests are about them, and every answer so far is
what was asked for.
-/
structure Sound (digest : String → δ) (texts : List String) (x : Exchange δ) : Prop where
  store : x.store.Faithful digest texts
  pending : ∀ r ∈ x.pending, r.text ∈ texts
  answers : ∀ a ∈ x.answers, a.routines = a.request.routines

omit [DecidableEq δ] in
theorem start_sound (digest : String → δ) (texts : List String) (lifetime : Nat) :
    (start lifetime).Sound digest texts :=
  ⟨Store.faithful_empty lifetime, by simp [start], by simp [start]⟩

/-- One step keeps all of it, if it asks about one of the texts. -/
theorem Sound.step {digest : String → δ} {texts : List String} {x : Exchange δ}
    (h : x.Sound digest texts) (hd : TellsApart digest texts) (s : SharedStep)
    (hs : ∀ r, s.request? = some r → r.text ∈ texts) : (x.step digest s).Sound digest texts := by
  cases s with
  | lookup r now =>
      have hr : r.text ∈ texts := hs r rfl
      simp only [Exchange.step]
      cases hk : known? digest x.store now r with
      | some routines =>
          refine ⟨h.store, h.pending, ?_⟩
          intro a ha
          rcases List.mem_cons.1 ha with rfl | ha
          · exact routines_of_known? h.store hd hr hk
          · exact h.answers a ha
      | none =>
          refine ⟨h.store, ?_, h.answers⟩
          intro q hq
          rcases List.mem_cons.1 hq with rfl | hq
          · exact hr
          · exact h.pending q hq
  | finish r time =>
      simp only [Exchange.step]
      split
      · next hr =>
          refine ⟨h.store.remember time (h.pending r hr), ?_, ?_⟩
          · intro q hq
            exact h.pending q (List.mem_of_mem_erase hq)
          · intro a ha
            rcases List.mem_cons.1 ha with rfl | ha
            · rfl
            · exact h.answers a ha
      · exact h
  | erase document => exact ⟨h.store.filter _, h.pending, h.answers⟩
  | clear => exact ⟨Store.faithful_empty _, h.pending, h.answers⟩
  | evict now => exact ⟨h.store.filter _, h.pending, h.answers⟩

/-- Any run of steps keeps all of it, if the steps ask about the texts only. -/
theorem run_sound {digest : String → δ} {texts : List String} (hd : TellsApart digest texts)
    {steps : List SharedStep} (hs : ∀ s ∈ steps, ∀ r, s.request? = some r → r.text ∈ texts)
    {x : Exchange δ} (h : x.Sound digest texts) : (x.run digest steps).Sound digest texts := by
  induction steps generalizing x with
  | nil => exact h
  | cons s rest ih =>
      have hstep : (x.step digest s).Sound digest texts := h.step hd s (hs s List.mem_cons_self)
      exact ih (fun t ht => hs t (List.mem_cons_of_mem s ht)) hstep

/-- The requests that were answered or are pending. -/
def asked (x : Exchange δ) : List Request :=
  x.answers.map Answer.request ++ x.pending

/-- One step adds the request that it starts to answer, and loses none. -/
theorem asked_step (digest : String → δ) (x : Exchange δ) (s : SharedStep) :
    (x.step digest s).asked.Perm (s.request?.toList ++ x.asked) := by
  cases s with
  | lookup r now =>
      simp only [Exchange.step]
      cases known? digest x.store now r with
      | some routines => exact List.Perm.refl _
      | none => exact List.perm_middle
  | finish r time =>
      simp only [Exchange.step]
      split
      · next hr =>
          have hp : x.pending.Perm (r :: x.pending.erase r) := List.perm_cons_erase hr
          exact (List.perm_middle.symm).trans (hp.symm.append_left _)
      · exact List.Perm.refl _
  | erase document => exact List.Perm.refl _
  | clear => exact List.Perm.refl _
  | evict now => exact List.Perm.refl _

/-- After a run, the requests that it looked up are answered or pending, each as often. -/
theorem run_perm (digest : String → δ) (steps : List SharedStep) (x : Exchange δ) :
    (x.run digest steps).asked.Perm (steps.filterMap SharedStep.request? ++ x.asked) := by
  induction steps generalizing x with
  | nil => exact List.Perm.refl _
  | cons s rest ih =>
      have hstep := asked_step digest x s
      have hrest := ih (x.step digest s)
      -- the steps that come later are counted first, so the two parts change places
      have hsplit : (s :: rest).filterMap SharedStep.request? =
          s.request?.toList ++ rest.filterMap SharedStep.request? := by
        cases h : s.request? <;> simp [h]
      rw [hsplit]
      have hswap : (rest.filterMap SharedStep.request? ++ (s.request?.toList ++ x.asked)).Perm
          (s.request?.toList ++ rest.filterMap SharedStep.request? ++ x.asked) := by
        rw [← List.append_assoc]
        exact List.perm_append_comm.append_right _
      exact (hrest.trans (hstep.append_left _)).trans hswap

end Exchange

/-! ### Whole questions -/

namespace Session

/-- A session without a store. -/
def uncached (digest : String → δ) : Session δ :=
  ⟨digest, none⟩

/-- What a session keeps is faithful to the texts. -/
def Faithful (texts : List String) (s : Session δ) : Prop :=
  ∀ store, s.store = some store → store.Faithful s.digest texts

/--
A question that nothing comes between is a look-up and, where that finds nothing, its end: the
answer and the store are those of the two steps.
-/
theorem analyze_eq_run (digest : String → δ) (store : Store (Snapshot δ))
    (lookupTime storeTime : Nat) (r : Request) :
    ∃ routines last,
      analyze ⟨digest, some store⟩ lookupTime storeTime r = (routines, ⟨digest, some last⟩) ∧
      Exchange.run digest ⟨store, [], []⟩ [.lookup r lookupTime, .finish r storeTime] =
        ⟨last, [], [⟨r, routines⟩]⟩ := by
  cases hk : known? digest store lookupTime r with
  | some routines =>
      refine ⟨routines, store, by simp [analyze, hk], ?_⟩
      simp [Exchange.run, Exchange.step, hk]
  | none =>
      refine ⟨r.routines, remember digest store storeTime r r.routines, by simp [analyze, hk], ?_⟩
      simp [Exchange.run, Exchange.step, hk]

/-- A faithful session answers what is asked for, and stays faithful. -/
theorem analyze_of_faithful {texts : List String} {s : Session δ} (h : s.Faithful texts)
    (hd : TellsApart s.digest texts) (lookupTime storeTime : Nat) {r : Request}
    (hr : r.text ∈ texts) :
    (s.analyze lookupTime storeTime r).1 = r.routines ∧
      (s.analyze lookupTime storeTime r).2.digest = s.digest ∧
      (s.analyze lookupTime storeTime r).2.Faithful texts := by
  obtain ⟨digest, kept⟩ := s
  cases kept with
  | none => exact ⟨rfl, rfl, h⟩
  | some store =>
      have hstore : store.Faithful digest texts := h store rfl
      simp only [analyze]
      cases hk : known? digest store lookupTime r with
      | some routines => exact ⟨routines_of_known? hstore hd hr hk, rfl, h⟩
      | none =>
          refine ⟨rfl, rfl, ?_⟩
          rintro _ ⟨rfl⟩
          exact hstore.remember storeTime hr

/-- A faithful session answers any number of questions, one after the other. -/
theorem analyzeAll_of_faithful {texts : List String} {s : Session δ} (h : s.Faithful texts)
    (hd : TellsApart s.digest texts) (clock : Nat → Nat) {requests : List Request}
    (hr : ∀ r ∈ requests, r.text ∈ texts) :
    (s.analyzeAll clock requests).1 = requests.map Request.routines := by
  induction requests generalizing s clock with
  | nil => rfl
  | cons r rest ih =>
      obtain ⟨hfirst, hdigest, hnext⟩ :=
        analyze_of_faithful h hd (clock 0) (clock 1) (hr r List.mem_cons_self)
      have hrest := ih hnext (by rwa [hdigest]) (fun n => clock (n + 2))
        (fun q hq => hr q (List.mem_cons_of_mem r hq))
      simp only [analyzeAll, List.map_cons]
      rw [hfirst, hrest]

end Session

/-! ### The program -/

/-- Settings with results kept, or not kept. -/
def Settings.withCache (s : Settings) (enabled : Bool) : Settings :=
  { s with cache := { s.cache with enabled } }

namespace Context

/-- A program with results kept, or not kept. -/
def withCache (c : Context δ) (enabled : Bool) : Context δ :=
  { c with settings := c.settings.withCache enabled }

/--
The texts of the scripts that a question analyses one after the other.  Only one text is analysed to
find the routine at a position, so that nothing kept can be found again.
-/
def textsFor (w : Workspace) (c : Context δ) : Query → List String
  | .outline path _ | .lint path _ =>
    match w.sources c.settings path with
    | .ok sources => (c.requests sources).map Request.text
    | .error _ => []
  | .hover .. => []

omit [DecidableEq δ] in
/-- The program starts with nothing kept. -/
theorem session_faithful (c : Context δ) (texts : List String) : c.session.Faithful texts := by
  intro store hstore
  simp only [session, Settings.session, Option.map_eq_some_iff] at hstore
  obtain ⟨lifetime, -, rfl⟩ := hstore
  exact Store.faithful_empty lifetime

/-- The routines that the program finds in scripts are those of their texts. -/
theorem outlines_eq (c : Context δ) (sources : List (String × List UInt8))
    (hd : TellsApart c.digest ((c.requests sources).map Request.text)) :
    c.outlines sources =
      (c.requests sources).map fun r => ⟨r.document, r.routines⟩ := by
  have hall := Session.analyzeAll_of_faithful (c.session_faithful _) hd c.clock
    (fun r hr => List.mem_map_of_mem hr)
  simp only [outlines]
  rw [hall, List.zipWith_map_right, List.zipWith_self]

/-- The program finds the same routines in scripts with and without results kept. -/
theorem outlines_withCache (c : Context δ) (sources : List (String × List UInt8))
    (hd : TellsApart c.digest ((c.requests sources).map Request.text)) :
    (c.withCache true).outlines sources = (c.withCache false).outlines sources := by
  have hkept := (c.withCache true).outlines_eq sources hd
  have hfresh := (c.withCache false).outlines_eq sources hd
  rw [hkept, hfresh]
  rfl

/-- The routine that the program finds at a position is that of the text. -/
theorem analyzeAt_eq (c : Context δ) (r : Request) (p : Position) (lookupTime storeTime : Nat) :
    (c.session.analyzeAt lookupTime storeTime r p).1 = routineAt? r.routines p := by
  have hd : TellsApart c.digest [r.text] := by
    intro a ha b hb _
    rw [List.mem_singleton.1 ha, List.mem_singleton.1 hb]
  obtain ⟨hroutines, -, -⟩ := Session.analyze_of_faithful (c.session_faithful [r.text]) hd
    lookupTime storeTime (List.mem_singleton_self r.text)
  simp only [Session.analyzeAt]
  rw [hroutines]

end Context

/-- Every question has the same answer with and without results kept. -/
theorem answer_withCache (w : Workspace) (c : Context δ) (q : Query)
    (hd : TellsApart c.digest (c.textsFor w q)) :
    answer w (c.withCache true) q = answer w (c.withCache false) q := by
  cases q with
  | outline path format =>
      simp only [Context.textsFor] at hd
      have h (b : Bool) : w.sources (c.withCache b).settings path = w.sources c.settings path := rfl
      simp only [answer, answerOutline, h, bind, Except.bind]
      cases hs : w.sources c.settings path with
      | error e => rfl
      | ok sources =>
          rw [hs] at hd
          simp only [c.outlines_withCache sources hd]
          rfl
  | hover path line column format =>
      simp only [answer, answerHover]
      cases w.read path with
      | error e => rfl
      | ok bytes =>
          simp only [Context.analyzeAt_eq]
          rfl
  | lint path format =>
      simp only [Context.textsFor] at hd
      have h (b : Bool) : w.sources (c.withCache b).settings path = w.sources c.settings path := rfl
      simp only [answer, answerLint, h, bind, Except.bind]
      cases hs : w.sources c.settings path with
      | error e => rfl
      | ok sources =>
          rw [hs] at hd
          simp only [c.outlines_withCache sources hd]
          rfl

/-! ### Transparency -/

/--
**Answers do not depend on the store.**  Whatever the lifetime, the clocks, the documents that share
a key, and the order in which steps of any number of sessions come: every answer is the one that a
session without a store gives, for all routines and for the one at a position, and no question is
lost.  The program writes the same and ends with the same code with and without results kept.
-/
theorem sharing_transparent (digest : String → δ) :
    (∀ (lifetime : Nat) (steps : List SharedStep),
      TellsApart digest ((steps.filterMap SharedStep.request?).map Request.text) →
      ((Exchange.start lifetime).run digest steps).asked.Perm
          (steps.filterMap SharedStep.request?) ∧
        ∀ a ∈ ((Exchange.start lifetime).run digest steps).answers,
          ∀ (lookupTime storeTime : Nat) (p : Position),
            a.routines =
                ((Session.uncached digest).analyze lookupTime storeTime a.request).1 ∧
              routineAt? a.routines p =
                ((Session.uncached digest).analyzeAt lookupTime storeTime a.request p).1) ∧
    ∀ (w : Workspace) (c : Context δ) (q : Query), TellsApart c.digest (c.textsFor w q) →
      answer w (c.withCache true) q = answer w (c.withCache false) q := by
  refine ⟨?_, answer_withCache⟩
  intro lifetime steps hd
  have hperm := Exchange.run_perm digest steps (Exchange.start lifetime)
  have hsteps : ∀ s ∈ steps, ∀ r, s.request? = some r →
      r.text ∈ (steps.filterMap SharedStep.request?).map Request.text := by
    intro s hs r hr
    exact List.mem_map_of_mem (List.mem_filterMap.2 ⟨s, hs, hr⟩)
  have hsound := Exchange.run_sound hd hsteps (Exchange.start_sound digest _ lifetime)
  refine ⟨by simpa [Exchange.asked, Exchange.start] using hperm, ?_⟩
  intro a ha lookupTime storeTime p
  have hroutines : a.routines = a.request.routines := hsound.answers a ha
  exact ⟨hroutines, by rw [hroutines]; rfl⟩

/-- Two documents with one key, asked about at once by a clock that also runs backwards. -/
def crossedSteps : List SharedStep :=
  let first : Request := ⟨"a/lib.ahk", "F() \x7b\n\x7d", 1⟩
  let second : Request := ⟨"b\\LIB.ahk2", "G() => 1", 1⟩
  [.lookup first 10, .lookup second 11, .finish first 12, .lookup first 5, .finish second 6,
    .lookup second 2000, .evict 3000, .lookup second 7, .finish second 8, .clear]

/-- A folder with two scripts that share a key. -/
def crossedWorkspace : Workspace :=
  let first := "F() \x7b\n\x7d".toList.map fun c => UInt8.ofNat c.toNat
  let second := "G() => 1".toList.map fun c => UInt8.ofNat c.toNat
  ⟨.folder [("lib.ahk", .file first), ("sub", .folder [("LIB.ahk2", .file second)])], [], []⟩

/-- A digest that keeps the first three characters of a text. -/
def firstThree (text : String) : String :=
  String.ofList (text.toList.take 3)

theorem sharing_transparent_crossed :
    TellsApart firstThree ((crossedSteps.filterMap SharedStep.request?).map Request.text) ∧
      ((Exchange.start 1000).run firstThree crossedSteps).asked.Perm
        (crossedSteps.filterMap SharedStep.request?) ∧
      (∀ a ∈ ((Exchange.start 1000).run firstThree crossedSteps).answers,
        a.routines = ((Session.uncached firstThree).analyze 0 0 a.request).1) ∧
      answer crossedWorkspace (Context.withCache ⟨{}, id, id, false⟩ true) (.lint "." .json) =
        answer crossedWorkspace (Context.withCache ⟨{}, id, id, false⟩ false) (.lint "." .json) := by
  have hd : TellsApart firstThree
      ((crossedSteps.filterMap SharedStep.request?).map Request.text) := by decide
  obtain ⟨hsteps, hprogram⟩ := sharing_transparent firstThree
  obtain ⟨hperm, hanswers⟩ := hsteps 1000 crossedSteps hd
  exact ⟨hd, hperm, fun a ha => (hanswers a ha 0 0 ⟨0, 0⟩).1,
    hprogram _ _ _ fun _ _ _ _ h => h⟩

end ScriptOutline
