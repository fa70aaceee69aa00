/-
**Analysing documents with and without a store.**

A session answers questions about the text of a document at a version.  With a store it keeps what
it found, and finds it again as long as the version and the digest of the text are the same.
Looking up and putting in are two steps, each at a time of its own, so that sessions can share a
store.

Main definitions:

* `Request` — a document, its text and its version;
* `Snapshot` — what is kept of an analysis;
* `known?`, `remember` — the two steps on a store;
* `Session`, `Session.analyze`, `Session.analyzeAt`, `Session.analyzeAll` — whole questions.

Main results:

* `Session.analyze_uncached` — without a store every question is answered anew.
-/

import ScriptOutline.Routine.Assembly
import ScriptOutline.Store

set_option relaxedAutoImplicit false
set_option autoImplicit false

namespace ScriptOutline

/-- A document with its text at a version. -/
structure Request where
  document : String
  text : String
  version : Int32
  deriving DecidableEq, Repr

/-- The routines that a request asks for. -/
def Request.routines (r : Request) : List Routine :=
  routinesOf r.text.toList r.version

/-- What is kept of an analysis: its routines, and the version and the digest of its text. -/
structure Snapshot (δ : Type) where
  version : Int32
  digest : δ
  routines : List Routine
  deriving DecidableEq, Repr

variable {δ : Type} [DecidableEq δ]

/-- The routines that a store keeps for a request, if it was made before for the same text. -/
def known? (digest : String → δ) (store : Store (Snapshot δ)) (now : Nat) (r : Request) :
    Option (List Routine) :=
  match store.find? r.document now with
  | some kept =>
    if kept.version = r.version && kept.digest = digest r.text then some kept.routines else none
  | none => none

/-- A store that keeps the routines of a request from a time on. -/
def remember (digest : String → δ) (store : Store (Snapshot δ)) (time : Nat) (r : Request)
    (routines : List Routine) : Store (Snapshot δ) :=
  store.insert r.document ⟨r.version, digest r.text, routines⟩ time

/-- A way to answer requests: a digest of texts, and a store if answers are kept. -/
structure Session (δ : Type) where
  digest : String → δ
  store : Option (Store (Snapshot δ))

namespace Session

/--
The routines that a request asks for, and the session after it.  The store is looked up at one time
and, if that finds nothing, put in at another.
-/
def analyze (s : Session δ) (lookupTime storeTime : Nat) (r : Request) :
    List Routine × Session δ :=
  match s.store with
  | none => (r.routines, s)
  | some store =>
    match known? s.digest store lookupTime r with
    | some routines => (routines, s)
    | none =>
      (r.routines, { s with store := some (remember s.digest store storeTime r r.routines) })

/-- The innermost routine at a position, and the session after the request. -/
def analyzeAt (s : Session δ) (lookupTime storeTime : Nat) (r : Request) (p : Position) :
    Option Routine × Session δ :=
  let (routines, next) := s.analyze lookupTime storeTime r
  (routineAt? routines p, next)

/--
The routines that requests ask for one after the other, and the session after them.  Each request
takes two readings of a clock.
-/
def analyzeAll (s : Session δ) (clock : Nat → Nat) : List Request → List (List Routine) × Session δ
  | [] => ([], s)
  | r :: rest =>
    let (routines, next) := s.analyze (clock 0) (clock 1) r
    let (others, last) := next.analyzeAll (fun n => clock (n + 2)) rest
    (routines :: others, last)

omit [DecidableEq δ] in
/-- Without a store every question is answered anew. -/
theorem analyze_uncached [DecidableEq δ] (s : Session δ) (lookupTime storeTime : Nat) (r : Request)
    (h : s.store = none) : s.analyze lookupTime storeTime r = (r.routines, s) := by
  simp [analyze, h]

end Session

end ScriptOutline
