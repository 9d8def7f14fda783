import Coursework.Endpoint.Submit
import Coursework.Proofs.Locks

/-!
# Submissions of many requests at once

`Endpoint.submit` takes one request from beginning to end.  In a server many requests submit at the
same time, and each can be held up wherever it waits: for the lock, for the store, for the grader.
A `Desk` is a server with all the requests that have come to submit, each at its own `Stage`; one
`Event` takes one of them a step further, and a run is any list of events.

A step is as small as what other requests can come in between.  Asking for a lock is three steps
(referring to the mutex of the key, asking it, looking whether it is one's turn) and giving it up is
two (leaving the mutex, cleaning up).  A request can be abandoned at any stage at which it waits.
The grader's answer is part of the event, and so is whatever else goes on at the server
(`Event.meanwhile`): the clock, operations of the store that are down, accounts, files.

`Stage.Goes` tells the moves apart by what they do, and `Desk.find?_step` says how a request that is
there has got where it is.  What holds in all runs is proved from these two.

`run_undisturbed` says that a request that nobody disturbs comes through the desk as `submit` has
it.
-/

set_option autoImplicit false

namespace Coursework
namespace Endpoint

open Time

/-! ## What is graded and then saved -/

section SaveGraded

variable {t : Ticket} {start finish : Moment} {history : List Grade} {points : Points}
  {b after : Backend}

theorem saveGraded_eq_ok (h : saveGraded t start finish history points b = .ok after) :
    b.save (graded t start finish history points) = .ok after := by
  rw [saveGraded] at h
  split at h
  · split at h
    · cases h
    · next hsave => rwa [Except.ok.inj h] at hsave
  · cases h

/-- Nothing is saved when the store refuses it, or when the handler breaks down for want of a number
(`hasNext`). -/
theorem saveGraded_eq_error {f : Fault}
    (h : saveGraded t start finish history points b = .error f) :
    (∃ e, f = .store e) ∨ f = .brokenDown ∧ hasNext start history = false := by
  rw [saveGraded] at h
  split at h
  · split at h
    · next e _ => exact .inl ⟨e, (Except.error.inj h).symm⟩
    · cases h
  · next hnone => exact .inr ⟨(Except.error.inj h).symm, by simpa using hnone⟩

theorem saveGraded_of_hasNext (hnext : hasNext start history = true)
    (hsave : b.save (graded t start finish history points) = .ok after) :
    saveGraded t start finish history points b = .ok after := by
  rw [saveGraded, if_pos hnext, hsave]

theorem hasNext_of_lt (start : Moment)
    (h : ∀ g ∈ history, ∀ n, Text.int64? g.shortId = some n → n < Text.int64Max) :
    hasNext start history = true := by
  rw [hasNext, greatestShortId]
  cases hmax : (history.filterMap fun g => Text.int64? g.shortId).max? with
  | none => rfl
  | some greatest =>
    obtain ⟨g, hg, hread⟩ := List.mem_filterMap.1 (List.max?_mem hmax)
    exact decide_eq_true fun _ => h g hg greatest hread

end SaveGraded

/-! ## The stages of a submission -/

/-- The answer to a submission, as `submit` gives it. -/
abbrev Answer := Except Fault SubmitAnswer

/-- How far a submission has come.  It has referred to the mutex of its key (`arrived`), asked it
(`queued`), got the lock (`holding`), read the history (`informed`), and been `admitted` at a
moment, whereupon the grader has its job; then it is `marked` and to be saved, or for another reason
`answered`.  Having left its mutex it is to clean up (`leaving`), and then it is over; there is no
answer if it was abandoned. -/
inductive Stage where
  | arrived
  | queued
  | holding
  | informed (history : List Grade)
  | admitted (start : Moment) (history : List Grade)
  | marked (start finish : Moment) (history : List Grade) (points : Points)
  | answered (answer : Answer)
  | leaving (answer : Option Answer)
  | finished (answer : Option Answer)

/-- What can happen to a submission: it goes on by itself, the grader answers, having taken some
time, or nobody waits for it any more. -/
inductive Move where
  | proceed
  | receive (answer : Except GradingFailure Points) (nanos : Int)
  | abandon

namespace Stage

/-- A submission goes on by itself; one that waits for the grader stays.  Each of these steps is one
in which the server is not interrupted. -/
def proceed (r : Nat) (t : Ticket) (s : Server) : Stage → Stage × Server
  | .arrived => (.queued, { s with locks := s.locks.enter r })
  | .queued =>
    (if (s.locks.poll r).isHeld r then .holding else .queued, { s with locks := s.locks.poll r })
  | .holding =>
    match s.backend.history t.key with
    | .error e => (.answered (.error (.store e)), s)
    | .ok history => (.informed history, s)
  | .informed history =>
    match judge t s.clock history with
    | .error e => (.answered (.ok (.rejected e)), { s with metrics := s.metrics.countRejected e })
    | .ok () => (.admitted s.clock history,
        { s with metrics := s.metrics.countAdmitted, jobs := s.jobs ++ [job t s.disk] })
  | .marked start finish history points =>
    match saveGraded t start finish history points s.backend with
    | .error f => (.answered (.error f), s)
    | .ok backend =>
      (.answered (.ok (.graded (graded t start finish history points).grade)),
        { s with backend := backend })
  | .answered a => (.leaving (some a), { s with locks := s.locks.leave r })
  | .leaving a => (.finished a, { s with locks := s.locks.prune t.key })
  | stage => (stage, s)

/-- The grader answers a submission that waits for it; any other stays. -/
def receive (answer : Except GradingFailure Points) (nanos : Int) (s : Server) :
    Stage → Stage × Server
  | .admitted start history =>
    match answer with
    | .error e => (.answered (.error (.gradingFailed e.message)), s.advance nanos)
    | .ok points => (.marked start (s.advance nanos).clock history points, s.advance nanos)
  | stage => (stage, s)

/-- A submission that waits is abandoned.  Only who had the lock cleans up (`LockTable.release`). -/
def abandon (r : Nat) (s : Server) : Stage → Stage × Server
  | .arrived | .queued => (.finished none, { s with locks := s.locks.leave r })
  | .holding | .informed _ | .admitted _ _ | .marked _ _ _ _ =>
    (.leaving none, { s with locks := s.locks.leave r })
  | stage => (stage, s)

/-- A move of request `r` with a ticket: what it makes of the stage, and of the server. -/
def move (r : Nat) (t : Ticket) (s : Server) (stage : Stage) : Move → Stage × Server
  | .proceed => stage.proceed r t s
  | .receive answer nanos => stage.receive answer nanos s
  | .abandon => stage.abandon r s

/-- What a move of request `r` can do: the stage that it takes to another, and the server that it
leaves.  There is a case for each way to go on, and one for staying. -/
inductive Goes (r : Nat) (t : Ticket) (s : Server) : Stage → Move → Stage × Server → Prop
  | queued : Goes r t s .arrived .proceed (.queued, { s with locks := s.locks.enter r })
  | granted (held : (s.locks.poll r).isHeld r = true) :
      Goes r t s .queued .proceed (.holding, { s with locks := s.locks.poll r })
  | passedOver (held : ¬ (s.locks.poll r).isHeld r = true) :
      Goes r t s .queued .proceed (.queued, { s with locks := s.locks.poll r })
  | uninformed {e : StoreError} (history : s.backend.history t.key = .error e) :
      Goes r t s .holding .proceed (.answered (.error (.store e)), s)
  | informed {seen : List Grade} (history : s.backend.history t.key = .ok seen) :
      Goes r t s .holding .proceed (.informed seen, s)
  | rejected {seen : List Grade} {reason : Rejection}
      (judged : judge t s.clock seen = .error reason) :
      Goes r t s (.informed seen) .proceed (.answered (.ok (.rejected reason)),
        { s with metrics := s.metrics.countRejected reason })
  | admitted {seen : List Grade} (judged : judge t s.clock seen = .ok ()) :
      Goes r t s (.informed seen) .proceed (.admitted s.clock seen,
        { s with metrics := s.metrics.countAdmitted, jobs := s.jobs ++ [job t s.disk] })
  | failed {start : Moment} {seen : List Grade} {failure : GradingFailure} {nanos : Int} :
      Goes r t s (.admitted start seen) (.receive (.error failure) nanos)
        (.answered (.error (.gradingFailed failure.message)), s.advance nanos)
  | marked {start : Moment} {seen : List Grade} {points : Points} {nanos : Int} :
      Goes r t s (.admitted start seen) (.receive (.ok points) nanos)
        (.marked start (s.advance nanos).clock seen points, s.advance nanos)
  | unsaved {start finish : Moment} {seen : List Grade} {points : Points} {f : Fault}
      (saved : saveGraded t start finish seen points s.backend = .error f) :
      Goes r t s (.marked start finish seen points) .proceed (.answered (.error f), s)
  | saved {start finish : Moment} {seen : List Grade} {points : Points} {backend : Backend}
      (saved : saveGraded t start finish seen points s.backend = .ok backend) :
      Goes r t s (.marked start finish seen points) .proceed
        (.answered (.ok (.graded (graded t start finish seen points).grade)),
          { s with backend := backend })
  | left {a : Answer} :
      Goes r t s (.answered a) .proceed (.leaving (some a), { s with locks := s.locks.leave r })
  | tidied {a : Option Answer} :
      Goes r t s (.leaving a) .proceed (.finished a, { s with locks := s.locks.prune t.key })
  | withdrawn {stage : Stage} (waits : stage = .arrived ∨ stage = .queued) :
      Goes r t s stage .abandon (.finished none, { s with locks := s.locks.leave r })
  | dropped {stage : Stage} (waits : ¬ (stage = .arrived ∨ stage = .queued)) :
      Goes r t s stage .abandon (.leaving none, { s with locks := s.locks.leave r })
  | stayed {stage : Stage} {m : Move} : Goes r t s stage m (stage, s)

theorem goes_move (r : Nat) (t : Ticket) (s : Server) (stage : Stage) (m : Move) :
    Goes r t s stage m (stage.move r t s m) := by
  cases m with
  | proceed =>
    cases stage with
    | arrived => exact .queued
    | queued =>
      simp only [move, proceed]
      split
      · next hheld => exact .granted hheld
      · next hheld => exact .passedOver hheld
    | holding =>
      simp only [move, proceed]
      split
      · next hhistory => exact .uninformed hhistory
      · next hhistory => exact .informed hhistory
    | informed seen =>
      simp only [move, proceed]
      split
      · next hjudged => exact .rejected hjudged
      · next hjudged => exact .admitted hjudged
    | marked start finish seen points =>
      simp only [move, proceed]
      split
      · next hsaved => exact .unsaved hsaved
      · next hsaved => exact .saved hsaved
    | answered a => exact .left
    | leaving a => exact .tidied
    | admitted _ _ | finished _ => exact .stayed
  | receive answer nanos =>
    cases stage with
    | admitted start seen =>
      cases answer with
      | error failure => exact .failed
      | ok points => exact .marked
    | _ => exact .stayed
  | abandon =>
    cases stage with
    | arrived => exact .withdrawn (.inl rfl)
    | queued => exact .withdrawn (.inr rfl)
    | holding | informed _ | admitted _ _ | marked _ _ _ _ => exact .dropped (by simp)
    | answered _ | leaving _ | finished _ => exact .stayed

end Stage

/-- A request that has come to submit, with its ticket and how far it has come. -/
structure Visit where
  ticket : Ticket
  stage : Stage

/-- A server and the requests that have come to submit, by number. -/
structure Desk where
  server : Server
  visits : Table Nat Visit

/-- What can happen at a desk: a request comes and refers to the mutex of its key, something happens
to one request, or whatever does not belong to submitting becomes as it is in another server. -/
inductive Event where
  /-- A request with a ticket comes, and refers to the mutex of its key. -/
  | arrive (t : Ticket)
  | move (r : Nat) (m : Move)
  /-- Whatever does not belong to submitting becomes as it is in another server. -/
  | meanwhile (s : Server)

/-- One server with the locks, the saved submissions and the numbering of another (`old`), which is
all that submitting keeps on a server between two moves. -/
def withDeskOf (s old : Server) : Server :=
  { s with
    locks := old.locks
    nextRequest := old.nextRequest
    backend := { s.backend with
      store := { s.backend.store with submissions := old.backend.store.submissions } } }

namespace Desk

def opened (s : Server) : Desk := ⟨s, Table.empty⟩

def arrive (d : Desk) (t : Ticket) : Desk where
  server := { d.server with
    locks := d.server.locks.refer d.server.nextRequest t.key
    nextRequest := d.server.nextRequest + 1 }
  visits := d.visits.insert d.server.nextRequest ⟨t, .arrived⟩

def move (d : Desk) (r : Nat) (m : Move) : Desk :=
  match d.visits.find? r with
  | none => d
  | some v =>
    ⟨(v.stage.move r v.ticket d.server m).2,
      d.visits.insert r { v with stage := (v.stage.move r v.ticket d.server m).1 }⟩

/-- One event.  A `meanwhile` lets time go by, and everything else that is not for submitting to
keep. -/
def step (d : Desk) : Event → Desk
  | .arrive t => d.arrive t
  | .move r m => d.move r m
  | .meanwhile s => { d with server := withDeskOf s d.server }

def run (d : Desk) (events : List Event) : Desk :=
  events.foldl step d

def submissionsOf (d : Desk) (key : SubmissionKey) : List Submission :=
  d.server.backend.store.submissionsOf key

@[simp] theorem run_nil (d : Desk) : d.run [] = d := rfl

@[simp] theorem run_cons (d : Desk) (e : Event) (events : List Event) :
    d.run (e :: events) = (d.step e).run events := rfl

theorem run_induction {Inv : Desk → Prop} {events : List Event}
    (hstep : ∀ d e, e ∈ events → Inv d → Inv (d.step e)) {d : Desk} (h : Inv d) :
    Inv (d.run events) :=
  List.foldlRecOn events step h fun d hd e he => hstep d e he hd

theorem move_of_find? {d : Desk} {r : Nat} {v : Visit} (h : d.visits.find? r = some v) (m : Move) :
    d.move r m = ⟨(v.stage.move r v.ticket d.server m).2,
      d.visits.insert r { v with stage := (v.stage.move r v.ticket d.server m).1 }⟩ := by
  rw [move, h]

/-- A request that is there after an event was there before, or it has just come, or has just made a
move (`Stage.Goes`). -/
theorem find?_step {d : Desk} {e : Event} {r : Nat} {v : Visit}
    (hv : (d.step e).visits.find? r = some v) :
    d.visits.find? r = some v ∨ (e = .arrive v.ticket ∧ v.stage = .arrived) ∨
      ∃ u m, e = .move r m ∧ d.visits.find? r = some u ∧ u.ticket = v.ticket ∧
        Stage.Goes r v.ticket d.server u.stage m (v.stage, (d.step e).server) := by
  cases e with
  | arrive t =>
    rw [step, arrive, Table.find?_insert] at hv
    split at hv
    · cases hv
      exact .inr (.inl ⟨rfl, rfl⟩)
    · exact .inl hv
  | meanwhile s => exact .inl hv
  | move q m =>
    cases hq : d.visits.find? q with
    | none =>
      rw [step, move, hq] at hv
      exact .inl hv
    | some u =>
      rw [step, move_of_find? hq] at hv ⊢
      rw [Table.find?_insert] at hv
      split at hv
      · next hr =>
        subst hr
        cases hv
        exact .inr (.inr ⟨u, m, rfl, hq, rfl, u.stage.goes_move r u.ticket d.server m⟩)
      · exact .inl hv

end Desk

/-! ## A request that nobody disturbs -/

namespace Stage

def moves (r : Nat) (t : Ticket) (start : Stage × Server) (ms : List Move) : Stage × Server :=
  ms.foldl (fun p m => p.1.move r t p.2 m) start

@[simp] theorem moves_nil (r : Nat) (t : Ticket) (p : Stage × Server) : moves r t p [] = p := rfl

@[simp] theorem moves_cons (r : Nat) (t : Ticket) (p : Stage × Server) (m : Move)
    (ms : List Move) : moves r t p (m :: ms) = moves r t (p.1.move r t p.2 m) ms := rfl

theorem moves_append (r : Nat) (t : Ticket) (p : Stage × Server) (ms ns : List Move) :
    moves r t p (ms ++ ns) = moves r t (moves r t p ms) ns :=
  List.foldl_append

/-- The moves that lead a request to a lock that is free: it asks, and then looks. -/
def toLock : List Move := [.proceed, .proceed]

/-- The moves of a request that has the lock, when the grader answers as it does on the server
`s`. -/
def withLock (t : Ticket) (s : Server) : List Move :=
  [.proceed, .proceed,
    .receive (s.grader.grade (job t s.disk)) (s.grader.nanos (job t s.disk)),
    .proceed, .proceed, .proceed]

theorem moves_toLock {r : Nat} {t : Ticket} {s : Server} (h : s.locks.Idle) :
    moves r t (.arrived, { s with locks := s.locks.refer r t.key }) toLock =
      (.holding, { s with locks := s.locks.acquire r t.key }) := by
  have hacquire : s.locks.acquire r t.key = ((s.locks.refer r t.key).enter r).poll r := by
    rw [LockTable.acquire, if_neg (by simp [h.isKnown r])]
  have hheld := (h.holds_acquire r t.key).isHeld
  rw [hacquire] at hheld ⊢
  simp only [toLock, moves_cons, moves_nil, move, proceed, hheld, if_true]

/-- With the lock, a request does what `submitLocked` does, and gives the lock up. -/
theorem moves_withLock (r : Nat) (t : Ticket) (s : Server) :
    moves r t (.holding, s) (withLock t s) =
      (.finished (some (submitLocked t s).1), { (submitLocked t s).2 with
        locks := ((submitLocked t s).2.locks.leave r).prune t.key }) := by
  simp only [withLock, moves_cons, moves_nil, move]
  cases hhistory : s.backend.history t.key with
  | error e => simp only [submitLocked, proceed, receive, hhistory]
  | ok history =>
    cases hjudge : judge t s.clock history with
    | error e => simp only [submitLocked, proceed, receive, hhistory, hjudge]
    | ok _ =>
      cases hgrade : s.grader.grade (job t s.disk) with
      | error e =>
        simp only [submitLocked, record, Server.grade, Server.advance, proceed, receive, hhistory,
          hjudge, hgrade]
      | ok points =>
        cases hsave : saveGraded t s.clock
            ⟨s.clock.instant + s.grader.nanos (job t s.disk), s.clock.offset⟩ history points
            s.backend <;>
          simp only [submitLocked, record, Server.grade, Server.advance, proceed, receive, hhistory,
            hjudge, hgrade, hsave]

end Stage

theorem locks_submitLocked (t : Ticket) (s : Server) : (submitLocked t s).2.locks = s.locks := by
  rw [submitLocked]
  split
  · rfl
  · dsimp only
    split
    · rfl
    · simp only [record, Server.grade, Server.advance]
      split
      · rfl
      · split <;> rfl

namespace Desk

/-- Moves of one request change its stage and the server as they do by themselves. -/
theorem run_moves {d : Desk} {r : Nat} {t : Ticket} {stage : Stage}
    (h : d.visits.find? r = some ⟨t, stage⟩) (ms : List Move) :
    (d.run (ms.map (.move r))).server = (Stage.moves r t (stage, d.server) ms).2 ∧
      (d.run (ms.map (.move r))).visits.find? r =
        some ⟨t, (Stage.moves r t (stage, d.server) ms).1⟩ := by
  induction ms generalizing d stage with
  | nil => exact ⟨rfl, h⟩
  | cons m ms ih =>
    rw [List.map_cons, run_cons, Stage.moves_cons, step, move_of_find? h]
    exact ih (Table.find?_insert_self _ _ _)

end Desk

/-- The events of a request that comes to a server and is not disturbed. -/
def undisturbed (s : Server) (t : Ticket) : List Event :=
  .arrive t :: (Stage.toLock ++ Stage.withLock t s).map (.move s.nextRequest)

/-- **One request alone.**  A request that comes to an idle lock table and that nobody disturbs
leaves the server as `submit` does, and gets the same answer.  So what is proved of every run of a
`Desk` is proved of `submit` as well. -/
theorem run_undisturbed {m : Materialized SubmitRequest} {s : Server} {t : Ticket}
    (ht : ticket m = .ok t) (hidle : s.locks.Idle) :
    ((Desk.opened s).run (undisturbed s t)).server = (submit m s).2 ∧
      ((Desk.opened s).run (undisturbed s t)).visits.find? s.nextRequest =
        some ⟨t, .finished (some (submit m s).1)⟩ := by
  let s₁ : Server := { s with nextRequest := s.nextRequest + 1 }
  have harrived : ((Desk.opened s).arrive t).visits.find? s.nextRequest = some ⟨t, .arrived⟩ :=
    Table.find?_insert_self _ _ _
  have hlock : Stage.moves s.nextRequest t (.arrived, ((Desk.opened s).arrive t).server)
      Stage.toLock = (.holding, (takeLock t s).2) :=
    Stage.moves_toLock (s := s₁) hidle
  have hrelease : (submitLocked t (takeLock t s).2).2.locks.release s.nextRequest =
      ((submitLocked t (takeLock t s).2).2.locks.leave s.nextRequest).prune t.key := by
    rw [locks_submitLocked]
    exact (hidle.holds_acquire s.nextRequest t.key).release_eq
  have hsubmit : Stage.moves s.nextRequest t (.arrived, ((Desk.opened s).arrive t).server)
      (Stage.toLock ++ Stage.withLock t s) = (.finished (some (submit m s).1), (submit m s).2) := by
    rw [Stage.moves_append, hlock]
    refine (Stage.moves_withLock s.nextRequest t (takeLock t s).2).trans ?_
    rw [← hrelease]
    simp only [submit, ht]
    rfl
  have hrun := Desk.run_moves harrived (Stage.toLock ++ Stage.withLock t s)
  rw [hsubmit] at hrun
  rw [undisturbed, Desk.run_cons, Desk.step]
  exact hrun

/-! ## To try things out with -/

def serverAt (nanos : Int) : Server :=
  .start .empty ⟨nanos, 0⟩ .foreseeable (.generous 0) .empty "/uploads"

def studentTicket (a : Assignment) : Ticket :=
  ⟨⟨a.courseId, ""⟩, a, "kim@school.edu", .student, "", false, ⟨"/uploads/kim", []⟩⟩

end Endpoint
end Coursework
