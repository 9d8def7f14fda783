import Coursework.Endpoint.Shipped
import Coursework.Proofs.Desk.Sound
import Coursework.Proofs.Request.Stages

/-!
# All requests of a server at once

`Route.call` takes one request from its text to its answer.  In a server many requests are on their
way at the same time, to any of its six endpoints.  A `Hall` is a server with all of them, each at
its own `Phase`, and with the desk at which some of them submit; one `Hall.Event` takes one request
a step further, and a run is any list of events.

What a request does by itself is cut where others can come in between: when its course and
assignment are found, when its sender is admitted, and when its fields are filled.  The handler of
an endpoint is one more step, except for a submission, which goes through the desk.  Whatever does
not belong to requests may change at any time (`Hall.Event.meanwhile`): the clock, the live nonces,
files, the grader.

`run_undisturbed` says that a request that nobody disturbs is answered as its route answers it.
-/

set_option autoImplicit false

namespace Coursework

open Json Time

namespace Request

variable {R : Type}

/-- The first stages of `materialize`, up to where others can come in between: the text of a request
is read, its schema is looked at, and its course and assignment are found. -/
def place (kind : RequestKind R) (raw : RawRequest) (s : Server) :
    Except Fault (R × Context × Option Course × Option Assignment) :=
  match decodeText? kind.decode raw.content with
  | none => .error (unread kind raw.content s)
  | some (r, context) =>
    match kind.schema.validate with
    | .error f => .error f
    | .ok () =>
      match resolve kind.schema context s.backend with
      | .error f => .error f
      | .ok (course, assignment) => .ok (r, context, course, assignment)

/-- A request is placed (`place`), then its sender is admitted, and then it is completed. -/
theorem materialize_eq (kind : RequestKind R) (raw : RawRequest) (s : Server) :
    materialize kind raw s =
      match place kind raw s with
      | .error f => (.error f, s)
      | .ok (r, context, course, assignment) =>
        match admitSender kind.schema s.backend s.nonces context course with
        | (.error f, nonces) => (.error f, { s with nonces := nonces })
        | (.ok identity, nonces) =>
          complete kind raw.files r course assignment identity { s with nonces := nonces } := by
  rw [materialize, place]
  rcases decodeText? kind.decode raw.content with _ | ⟨r, context⟩
  · rfl
  · rcases kind.schema.validate with f | ⟨⟩
    · rfl
    · dsimp only
      rcases resolve kind.schema context s.backend with f | ⟨course, assignment⟩ <;> rfl

/-- What is placed has the course and the assignment that its context leads to. -/
theorem resolve_of_place {kind : RequestKind R} {raw : RawRequest} {s : Server} {r : R}
    {context : Context} {course : Option Course} {assignment : Option Assignment}
    (h : place kind raw s = .ok (r, context, course, assignment)) :
    resolve kind.schema context s.backend = .ok (course, assignment) := by
  rw [place] at h
  split at h
  · cases h
  · split at h
    · cases h
    · split at h
      · cases h
      · next hresolve =>
        cases h
        exact hresolve

end Request

def Server.discard (s : Server) (uploads : List UploadSet) : Server :=
  { s with disk := UploadSet.discardAll uploads s.disk }

/-- One server differs from another only in what is beside submitting: everything but the store, the
locks and the numbering of requests. -/
structure Server.Beside (s u : Server) : Prop where
  locks : u.locks = s.locks
  numbering : u.nextRequest = s.nextRequest
  submissions : u.backend.store.submissions = s.backend.store.submissions
  down : u.backend.down = s.backend.down

namespace Server.Beside

theorem refl (s : Server) : s.Beside s :=
  ⟨rfl, rfl, rfl, rfl⟩

theorem nonces (s : Server) (left : Nonces) : s.Beside { s with nonces := left } :=
  ⟨rfl, rfl, rfl, rfl⟩

theorem discard {s u : Server} (h : s.Beside u) (uploads : List UploadSet) :
    s.Beside (u.discard uploads) :=
  ⟨h.locks, h.numbering, h.submissions, h.down⟩

end Server.Beside

theorem Request.beside_complete {R : Type} (kind : RequestKind R) (files : List Upload) (r : R)
    (course : Option Course) (assignment : Option Assignment) (identity : Option Identity)
    (s : Server) : s.Beside (complete kind files r course assignment identity s).2 := by
  rw [complete]
  split <;> exact ⟨rfl, rfl, rfl, rfl⟩

namespace Endpoint

/-! ## The endpoints -/

/-- The six endpoints of every server, which `map_route` ties to the routes in
`Endpoint.shipped`. -/
inductive Shipped where
  | auth
  | password
  | roster
  | submit
  | peek
  | history
deriving DecidableEq, Repr

/-- What a handler does with a materialized request: it answers at once, or sends it to submit. -/
inductive Work where
  | answer (reply : Reply)
  | queue (t : Ticket)

namespace Shipped

abbrev Body : Shipped → Type
  | auth => Unit
  | password => PasswordChange
  | roster => List RosterEntry
  | submit => SubmitRequest
  | peek => PeekRequest
  | history => HistoryRequest

def kind : (e : Shipped) → RequestKind e.Body
  | auth => authKind
  | password => passwordKind
  | roster => rosterKind
  | submit => submitKind
  | peek => peekKind
  | history => historyKind

def route : Shipped → Route
  | auth => authRoute
  | password => passwordRoute
  | roster => rosterRoute
  | submit => submitRoute
  | peek => peekRoute
  | history => historyRoute

/-- What the route of an endpoint answers to a materialized request. -/
def respond : (e : Shipped) → Materialized e.Body → Server → Reply × Server
  | auth, m, s => (Reply.ofResult ((Endpoint.auth m).map .ok), s)
  | password, m, s => (Reply.ofResult ((changePassword m s).1.map .ok), (changePassword m s).2)
  | roster, m, s => (Reply.ofContent (.ok (listUsers m)), s)
  | submit, m, s => (Reply.ofAnswer (Endpoint.submit m s).1, (Endpoint.submit m s).2)
  | peek, m, s => (Reply.ofResult ((Endpoint.peek s.backend m).map Peeked.writeJson), s)
  | history, m, s => (Reply.ofResult ((Endpoint.history s.backend m).map History.writeJson), s)

/-- What is done with a materialized request: one that submits waits for its lock at the `Desk`, and
any other is answered as `respond` says. -/
def handle : (e : Shipped) → Materialized e.Body → Server → Work × Server
  | submit, m, s =>
    match ticket m with
    | .error f => (.answer (.refused f), s)
    | .ok t => (.queue t, s)
  | e, m, s => (.answer (e.respond m s).1, (e.respond m s).2)

theorem call_route (e : Shipped) (raw : RawRequest) (s : Server) :
    e.route.call raw s = Route.run e.kind e.respond raw s := by
  cases e <;> rfl

theorem map_route :
    [auth, password, roster, submit, peek, history].map route = shipped := rfl

end Shipped

/-! ## One request -/

namespace Desk

def withServer (d : Desk) (s : Server) : Desk :=
  { d with server := s }

def answer? (d : Desk) (r : Nat) : Option Answer :=
  match d.visits.find? r with
  | some ⟨_, .finished answer⟩ => answer
  | _ => none

end Desk

/-- How far a request has come.  Its text has `arrived`, with files perhaps; it was read, and its
course and assignment were found (`placed`); its sender was `admitted`; it is `ready` to run; it is
`visiting` the desk under a number, with the directories that are to be removed in the end; or it
was `answered`. -/
inductive Phase (R : Type) where
  | arrived (raw : RawRequest)
  | placed (files : List Upload) (r : R) (context : Context) (course : Option Course)
      (assignment : Option Assignment)
  | admitted (files : List Upload) (r : R) (course : Option Course)
      (assignment : Option Assignment) (identity : Option Identity)
  | ready (m : Materialized R)
  | visiting (number : Nat) (uploads : List UploadSet)
  | answered (reply : Reply)

/-- A request goes on by itself, by the stage of `materialize` that comes next; one that submits
waits until it is done. -/
def Phase.proceed {R : Type} (kind : RequestKind R)
    (handle : Materialized R → Server → Work × Server) (d : Desk) : Phase R → Phase R × Desk
  | .arrived raw =>
    match Request.place kind raw d.server with
    | .error f => (.answered (.refused f), d)
    | .ok (r, context, course, assignment) =>
      (.placed raw.files r context course assignment, d)
  | .placed files r context course assignment =>
    match Request.admitSender kind.schema d.server.backend d.server.nonces context course with
    | (.error f, nonces) =>
      (.answered (.refused f), d.withServer { d.server with nonces := nonces })
    | (.ok identity, nonces) =>
      (.admitted files r course assignment identity,
        d.withServer { d.server with nonces := nonces })
  | .admitted files r course assignment identity =>
    match Request.complete kind files r course assignment identity d.server with
    | (.error f, s) => (.answered (.refused f), d.withServer s)
    | (.ok m, s) => (.ready m, d.withServer s)
  | .ready m =>
    match handle m d.server with
    | (.answer reply, s) => (.answered reply, d.withServer (s.discard m.uploads))
    | (.queue t, s) => (.visiting s.nextRequest m.uploads, (d.withServer s).arrive t)
  | .visiting number uploads =>
    match d.answer? number with
    | some a => (.answered (Reply.ofAnswer a), d.withServer (d.server.discard uploads))
    | none => (.visiting number uploads, d)
  | .answered reply => (.answered reply, d)

/-- What can happen when a request goes on: where it gets to, and the desk that it leaves.  There is
a case for each stage and for how it ends. -/
inductive Phase.Goes {R : Type} (kind : RequestKind R)
    (handle : Materialized R → Server → Work × Server) (d : Desk) : Phase R → Phase R × Desk → Prop
  | misplaced {raw : RawRequest} {f : Fault}
      (place : Request.place kind raw d.server = .error f) :
      Goes kind handle d (.arrived raw) (.answered (.refused f), d)
  | placed {raw : RawRequest} {r : R} {context : Context} {course : Option Course}
      {assignment : Option Assignment}
      (place : Request.place kind raw d.server = .ok (r, context, course, assignment)) :
      Goes kind handle d (.arrived raw) (.placed raw.files r context course assignment, d)
  | turnedAway {files : List Upload} {r : R} {context : Context} {course : Option Course}
      {assignment : Option Assignment} {f : Fault} {nonces : Nonces}
      (entry : Request.admitSender kind.schema d.server.backend d.server.nonces context course =
        (.error f, nonces)) :
      Goes kind handle d (.placed files r context course assignment)
        (.answered (.refused f), d.withServer { d.server with nonces := nonces })
  | admitted {files : List Upload} {r : R} {context : Context} {course : Option Course}
      {assignment : Option Assignment} {identity : Option Identity} {nonces : Nonces}
      (entry : Request.admitSender kind.schema d.server.backend d.server.nonces context course =
        (.ok identity, nonces)) :
      Goes kind handle d (.placed files r context course assignment)
        (.admitted files r course assignment identity,
          d.withServer { d.server with nonces := nonces })
  | incomplete {files : List Upload} {r : R} {course : Option Course}
      {assignment : Option Assignment} {identity : Option Identity} {f : Fault} {s : Server}
      (complete : Request.complete kind files r course assignment identity d.server =
        (.error f, s)) :
      Goes kind handle d (.admitted files r course assignment identity)
        (.answered (.refused f), d.withServer s)
  | completed {files : List Upload} {r : R} {course : Option Course}
      {assignment : Option Assignment} {identity : Option Identity} {m : Materialized R}
      {s : Server}
      (complete : Request.complete kind files r course assignment identity d.server = (.ok m, s)) :
      Goes kind handle d (.admitted files r course assignment identity) (.ready m, d.withServer s)
  | handled {m : Materialized R} {reply : Reply} {s : Server}
      (work : handle m d.server = (.answer reply, s)) :
      Goes kind handle d (.ready m) (.answered reply, d.withServer (s.discard m.uploads))
  | queued {m : Materialized R} {t : Ticket} {s : Server}
      (work : handle m d.server = (.queue t, s)) :
      Goes kind handle d (.ready m) (.visiting s.nextRequest m.uploads, (d.withServer s).arrive t)
  | served {number : Nat} {uploads : List UploadSet} {a : Answer}
      (answer : d.answer? number = some a) :
      Goes kind handle d (.visiting number uploads)
        (.answered (Reply.ofAnswer a), d.withServer (d.server.discard uploads))
  | waiting {number : Nat} {uploads : List UploadSet} (answer : d.answer? number = none) :
      Goes kind handle d (.visiting number uploads) (.visiting number uploads, d)
  | ended {reply : Reply} : Goes kind handle d (.answered reply) (.answered reply, d)

theorem Phase.goes_proceed {R : Type} (kind : RequestKind R)
    (handle : Materialized R → Server → Work × Server) (d : Desk) (phase : Phase R) :
    phase.Goes kind handle d (phase.proceed kind handle d) := by
  cases phase with
  | arrived raw =>
    simp only [proceed]
    split
    · next hplace => exact .misplaced hplace
    · next hplace => exact .placed hplace
  | placed files r context course assignment =>
    simp only [proceed]
    split
    · next hentry => exact .turnedAway hentry
    · next hentry => exact .admitted hentry
  | admitted files r course assignment identity =>
    simp only [proceed]
    split
    · next hcomplete => exact .incomplete hcomplete
    · next hcomplete => exact .completed hcomplete
  | ready m =>
    simp only [proceed]
    split
    · next hwork => exact .handled hwork
    · next hwork => exact .queued hwork
  | visiting number uploads =>
    simp only [proceed]
    split
    · next hanswer => exact .served hanswer
    · next hanswer => exact .waiting hanswer
  | answered reply => exact .ended

/-! ## All requests -/

structure Call where
  endpoint : Shipped
  phase : Phase endpoint.Body

/-- A server with its desk and all requests that have come, by number. -/
structure Hall where
  desk : Desk
  calls : Table Nat Call
  next : Nat

/-- One server with the store, the locks and the numbering of another, which is what requests keep
on a server between their steps. -/
def withHallOf (s old : Server) : Server :=
  { s with backend := old.backend, locks := old.locks, nextRequest := old.nextRequest }

namespace Hall

/-- What can happen in a hall: a request comes, a request goes on, something happens to a
submission, or whatever does not belong to requests becomes as it is in another server. -/
inductive Event where
  | arrive (e : Shipped) (raw : RawRequest)
  | proceed (n : Nat)
  | move (r : Nat) (m : Move)
  /-- Whatever does not belong to requests becomes as it is in another server. -/
  | meanwhile (s : Server)

def opened (s : Server) : Hall :=
  ⟨.opened s, Table.empty, 0⟩

def server (h : Hall) : Server :=
  h.desk.server

def store (h : Hall) : Store :=
  h.desk.server.backend.store

def arrive (h : Hall) (e : Shipped) (raw : RawRequest) : Hall :=
  { h with calls := h.calls.insert h.next ⟨e, .arrived raw⟩, next := h.next + 1 }

def advance (h : Hall) (c : Call) : Phase c.endpoint.Body × Desk :=
  c.phase.proceed c.endpoint.kind c.endpoint.handle h.desk

def proceed (h : Hall) (n : Nat) : Hall :=
  match h.calls.find? n with
  | none => h
  | some c =>
    { h with desk := (h.advance c).2, calls := h.calls.insert n ⟨c.endpoint, (h.advance c).1⟩ }

/-- One event.  A `meanwhile` may set clock, grader and entropy, mint and void nonces, and put
anything on the disk. -/
def step (h : Hall) : Event → Hall
  | .arrive e raw => h.arrive e raw
  | .proceed n => h.proceed n
  | .move r m => { h with desk := h.desk.move r m }
  | .meanwhile s => { h with desk := h.desk.withServer (withHallOf s h.server) }

def run (h : Hall) (events : List Event) : Hall :=
  events.foldl step h

@[simp] theorem run_nil (h : Hall) : h.run [] = h := rfl

@[simp] theorem run_cons (h : Hall) (e : Event) (events : List Event) :
    h.run (e :: events) = (h.step e).run events := rfl

theorem run_append (h : Hall) (events more : List Event) :
    h.run (events ++ more) = (h.run events).run more :=
  List.foldl_append

theorem run_induction {Inv : Hall → Prop} (hstep : ∀ h e, Inv h → Inv (h.step e)) {h : Hall}
    (hinv : Inv h) (events : List Event) : Inv (h.run events) :=
  List.foldlRecOn events step hinv fun h hh e _ => hstep h e hh

theorem proceed_of_find? {h : Hall} {n : Nat} {c : Call} (hc : h.calls.find? n = some c) :
    h.proceed n =
      { h with
        desk := (h.advance c).2
        calls := h.calls.insert n ⟨c.endpoint, (h.advance c).1⟩ } := by
  rw [proceed, hc]

/-- A request that is there after an event was there before, or it has just come, or has just gone
on (`Phase.Goes`). -/
theorem find?_step {h : Hall} {event : Event} {n : Nat} {e : Shipped} {phase : Phase e.Body}
    (hcall : (h.step event).calls.find? n = some ⟨e, phase⟩) :
    h.calls.find? n = some ⟨e, phase⟩ ∨ (∃ raw, phase = .arrived raw) ∨
      ∃ before d, event = .proceed n ∧ h.calls.find? n = some ⟨e, before⟩ ∧
        before.Goes e.kind e.handle h.desk (phase, d) := by
  cases event with
  | arrive endpoint raw =>
    rw [step, arrive, Table.find?_insert] at hcall
    split at hcall
    · cases hcall
      exact .inr (.inl ⟨raw, rfl⟩)
    · exact .inl hcall
  | move r m => exact .inl hcall
  | meanwhile s => exact .inl hcall
  | proceed k =>
    cases hk : h.calls.find? k with
    | none =>
      rw [step, proceed, hk] at hcall
      exact .inl hcall
    | some before =>
      rw [step, proceed_of_find? hk, Table.find?_insert] at hcall
      split at hcall
      · next hn =>
        subst hn
        cases hcall
        exact .inr (.inr ⟨before.phase, _, rfl, hk, before.phase.goes_proceed _ _ h.desk⟩)
      · exact .inl hcall

/-! ## A request that nobody disturbs -/

/-- A request is at a phase, and the desk is as it says. -/
structure IsAt (h : Hall) (n : Nat) (e : Shipped) (phase : Phase e.Body) (d : Desk) : Prop where
  call : h.calls.find? n = some ⟨e, phase⟩
  desk : h.desk = d

theorem isAt_arrive (s : Server) (e : Shipped) (raw : RawRequest) :
    ((opened s).run [.arrive e raw]).IsAt 0 e (.arrived raw) (.opened s) :=
  ⟨Table.find?_insert_self _ _ _, rfl⟩

theorem IsAt.proceed {h : Hall} {n : Nat} {e : Shipped} {phase next : Phase e.Body} {d after : Desk}
    (hat : h.IsAt n e phase d) (hnext : phase.proceed e.kind e.handle d = (next, after)) :
    (h.run [.proceed n]).IsAt n e next after := by
  obtain ⟨hcall, rfl⟩ := hat
  rw [run_cons, run_nil, step, proceed_of_find? hcall]
  have hadvance : h.advance ⟨e, phase⟩ = (next, after) := hnext
  refine ⟨?_, by rw [hadvance]⟩
  simp only [Table.find?_insert_self, hadvance]

theorem IsAt.moves {h : Hall} {n : Nat} {e : Shipped} {phase : Phase e.Body} {d : Desk}
    (hat : h.IsAt n e phase d) (r : Nat) (ms : List Move) :
    (h.run (ms.map (.move r))).IsAt n e phase (d.run (ms.map (.move r))) := by
  induction ms generalizing h d with
  | nil => exact hat
  | cons m ms ih =>
    obtain ⟨hcall, rfl⟩ := hat
    exact ih ⟨hcall, rfl⟩

/-- What a request has come to after all: its answer, and the server that is left. -/
structure Ends (h : Hall) (e : Shipped) (outcome : Reply × Server) : Prop where
  answered : h.calls.find? 0 = some ⟨e, .answered outcome.1⟩
  server : h.server = outcome.2

theorem IsAt.ends {h : Hall} {e : Shipped} {reply : Reply} {d : Desk}
    (hat : h.IsAt 0 e (.answered reply) d) : h.Ends e (reply, d.server) :=
  ⟨hat.call, by rw [Hall.server, hat.desk]⟩

/-- A request that has not all that submitting depends on is refused, which is no breakdown. -/
theorem ofAnswer_of_ticket {m : Materialized SubmitRequest} {f : Fault} (h : ticket m = .error f) :
    Reply.ofAnswer (.error f) = .refused f := by
  have hother : f ≠ .brokenDown := by
    obtain ⟨⟨message, late, files⟩, course, assignment, identity, uploads⟩ := m
    rcases identity with _ | i <;> rcases course with _ | c <;> rcases assignment with _ | a <;>
      rcases files with _ | files <;> cases h <;> decide
  rw [Reply.ofAnswer, if_neg hother]

/-- A request is answered at once as its route answers it, or it goes to the desk and is answered
there in the same way. -/
theorem handle_cases (e : Shipped) (m : Materialized e.Body) {s : Server} (hidle : s.locks.Idle) :
    e.handle m s = (.answer (e.respond m s).1, (e.respond m s).2) ∨
      ∃ t a, e.handle m s = (.queue t, s) ∧
        ((Desk.opened s).run (undisturbed s t)).server = (e.respond m s).2 ∧
        ((Desk.opened s).run (undisturbed s t)).visits.find? s.nextRequest =
          some ⟨t, .finished (some a)⟩ ∧
        Reply.ofAnswer a = (e.respond m s).1 := by
  cases e with
  | auth | password | roster | peek | history => exact .inl rfl
  | submit =>
    cases hticket : ticket m with
    | error f =>
      left
      simp only [Shipped.handle, Shipped.respond, submit, hticket, ofAnswer_of_ticket hticket]
    | ok t =>
      obtain ⟨hserver, hvisit⟩ := Endpoint.run_undisturbed hticket hidle
      refine .inr ⟨t, (submit m s).1, ?_, hserver, hvisit, rfl⟩
      simp only [Shipped.handle, hticket]

/-- A materialized request that nobody disturbs is answered as its route answers it. -/
theorem IsAt.ends_of_ready {h : Hall} {e : Shipped} {m : Materialized e.Body} {u : Server}
    (hat : h.IsAt 0 e (.ready m) (.opened u)) (hidle : u.locks.Idle) :
    ∃ events, (h.run events).Ends e ((e.respond m u).1, (e.respond m u).2.discard m.uploads) := by
  rcases handle_cases e m hidle with hanswer | ⟨t, a, hqueue, hserver, hvisit, hreply⟩
  · have hnext : (Phase.ready m).proceed e.kind e.handle (.opened u) =
        (.answered (e.respond m u).1, .opened ((e.respond m u).2.discard m.uploads)) := by
      simp only [Phase.proceed, Desk.opened, hanswer]
      rfl
    exact ⟨[.proceed 0], (hat.proceed hnext).ends⟩
  · obtain ⟨after, hafter⟩ : ∃ d, d = (Desk.opened u).run (undisturbed u t) := ⟨_, rfl⟩
    rw [← hafter] at hserver hvisit
    rw [undisturbed, Desk.run_cons, Desk.step] at hafter
    have hnext : (Phase.ready m).proceed e.kind e.handle (.opened u) =
        (.visiting u.nextRequest m.uploads, (Desk.opened u).arrive t) := by
      simp only [Phase.proceed, Desk.opened, hqueue]
      rfl
    have hdone := (hat.proceed hnext).moves u.nextRequest (Stage.toLock ++ Stage.withLock t u)
    rw [← hafter] at hdone
    have hanswer : after.answer? u.nextRequest = some a := by rw [Desk.answer?, hvisit]
    have hlast : (Phase.visiting u.nextRequest m.uploads).proceed e.kind e.handle after =
        (.answered (Reply.ofAnswer a), after.withServer (after.server.discard m.uploads)) := by
      simp only [Phase.proceed, hanswer]
    refine ⟨[.proceed 0] ++ (Stage.toLock ++ Stage.withLock t u).map (.move u.nextRequest) ++
      [.proceed 0], ?_⟩
    rw [run_append, run_append, ← hreply, ← hserver]
    exact (hdone.proceed hlast).ends

/-- **One request alone.**  A request that comes to an idle server and that nobody disturbs is
answered as its route answers it, and leaves the server as its route does.  So what is proved of
every run of a `Hall` is proved of `Route.call` as well. -/
theorem run_undisturbed (e : Shipped) (raw : RawRequest) {s : Server} (hidle : s.locks.Idle) :
    ∃ events, ((opened s).run (.arrive e raw :: events)).Ends e (e.route.call raw s) := by
  have harrived := isAt_arrive s e raw
  rw [Shipped.call_route, Route.run, Request.materialize_eq]
  rcases hplace : Request.place e.kind raw s with f | ⟨r, context, course, assignment⟩
  · have hrefused := harrived.proceed (by simp only [Phase.proceed, Desk.opened, hplace]; rfl)
    exact ⟨[.proceed 0], hrefused.ends⟩
  · have hplaced := harrived.proceed (by simp only [Phase.proceed, Desk.opened, hplace]; rfl)
    dsimp only
    rcases hentry : Request.admitSender e.kind.schema s.backend s.nonces context course with
      ⟨f | identity, nonces⟩
    · have hrefused := hplaced.proceed (by simp only [Phase.proceed, hentry]; rfl)
      exact ⟨[.proceed 0, .proceed 0], hrefused.ends⟩
    · have hadmitted := hplaced.proceed (by simp only [Phase.proceed, hentry]; rfl)
      dsimp only
      have hlocks := (Request.beside_complete e.kind raw.files r course assignment identity
        { s with nonces := nonces }).locks
      rcases hcomplete : Request.complete e.kind raw.files r course assignment identity
        { s with nonces := nonces } with ⟨f | m, u⟩
      · have hrefused := hadmitted.proceed (by
          simp only [Phase.proceed, Desk.withServer, hcomplete]; rfl)
        exact ⟨[.proceed 0, .proceed 0, .proceed 0], hrefused.ends⟩
      · have hready := hadmitted.proceed (by
          simp only [Phase.proceed, Desk.withServer, hcomplete]; rfl)
        rw [hcomplete] at hlocks
        obtain ⟨events, hends⟩ := hready.ends_of_ready (hlocks ▸ hidle)
        refine ⟨[.proceed 0, .proceed 0, .proceed 0] ++ events, ?_⟩
        simp only [run_cons, run_nil, List.cons_append, List.nil_append] at hends ⊢
        exact hends

end Hall
end Endpoint
end Coursework
