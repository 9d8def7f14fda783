import Coursework.Service.Route

/-!
# Submitting work

`submit` runs under the lock of the sender's submissions to the assignment.  It looks at the
history, decides on admission, has the files graded, and saves the outcome; `judge`, `grade` and
`record` are these steps by themselves.  A refusal is an ordinary answer and saves nothing.

A submission gets the seconds of its start as its short id, or one more than the greatest number
among the short ids before it when that is not less (`nextShortId`).  Short ids are numbers of 64
bits: behind the last of them there is no other, and the handler breaks down before it saves
anything (`saveGraded`).
-/

set_option autoImplicit false

namespace Coursework
namespace Endpoint

open Json Time

/-! ## The request -/

/-- A request to grade files: a message, whether the sender says that they know the work is late
(`allowLate`), and the files once they are filled in. -/
structure SubmitRequest where
  message : String
  allowLate : Bool
  files : Option UploadSet
deriving DecidableEq, Repr

def submitKind : RequestKind SubmitRequest where
  name := "SubmitRequest"
  schema := Schema.build [.assignment, .marker .student, .field ⟨"files", .files, true⟩]
  decode := RequestKind.decodeWith ["message", "allow-late"] fun f => do
    let message ← f.orElse "message" "" Decode.string
    let allowLate ← f.orElse "allow-late" false Decode.bool
    some ⟨message, allowLate, none⟩
  hydrate r field value :=
    match value with
    | .files set =>
      if field = "files" then .ok { r with files := some set }
      else .error (RequestKind.unexpectedField field)
    | .roster _ => .error (RequestKind.unexpectedField field)

/-- What submitting depends on, taken from a materialized request by `ticket`. -/
structure Ticket where
  course : Course
  assignment : Assignment
  email : String
  role : CourseRole
  message : String
  allowLate : Bool
  files : UploadSet

/-- The ticket of a materialized request.  A stage that the schema asks for has been through, so
that nothing is missing on the way of `submitRoute`. -/
def ticket (m : Materialized SubmitRequest) : Except Fault Ticket :=
  match m.needIdentity with
  | .error f => .error f
  | .ok i =>
    match m.needCourse with
    | .error f => .error f
    | .ok c =>
      match m.needAssignment with
      | .error f => .error f
      | .ok a =>
        match m.request.files with
        | none => .error (.internal "submission files were not hydrated")
        | some files =>
          .ok ⟨c, a, i.account.email, i.courseRole.getD .other, m.request.message,
            m.request.allowLate, files⟩

namespace Ticket

/-- The key of the submissions that this one joins, and of the lock that it takes. -/
def key (t : Ticket) : SubmissionKey :=
  ⟨t.course.id, t.assignment.id, t.email⟩

/-- The attempt that admission decides on: by now, as far as the clock of the server goes, and with
the start times of the history. -/
def attempt (t : Ticket) (now : Moment) (history : List Grade) : Attempt :=
  ⟨t.assignment, t.role, t.allowLate, now, history.map Grade.startTime⟩

end Ticket

/-! ## The steps -/

def judge (t : Ticket) (now : Moment) (history : List Grade) : Except Rejection Unit :=
  Admission.evaluate (t.attempt now history)

/-- The job for the grader, with what the files hold at this moment. -/
def job (t : Ticket) (d : Disk) : Job :=
  ⟨t.course.id, t.assignment.id, t.email, t.message,
    t.files.filenames.zip (t.files.contents d), t.assignment.maxPoints⟩

/-- The greatest number among the short ids of a history.  Short ids that are no numbers of 64 bits
do not count. -/
def greatestShortId (history : List Grade) : Option Int :=
  (history.filterMap fun g => Text.int64? g.shortId).max?

/-- Whether a number is left for the short id of a submission that starts at `start`.  Where the
greatest number of the history counts, it must not be the last that has 64 bits. -/
def hasNext (start : Moment) (history : List Grade) : Bool :=
  match greatestShortId history with
  | some greatest => decide (start.unixSeconds ≤ greatest → greatest < Text.int64Max)
  | none => true

/-- The short id of a submission that starts at `start`, if a number is left for it (`hasNext`): the
seconds of the clock, or one more than the `greatestShortId` where that is not less. -/
def nextShortId (start : Moment) (history : List Grade) : String :=
  match greatestShortId history with
  | some greatest =>
    if start.unixSeconds ≤ greatest then Text.decimal (greatest + 1)
    else SubmissionId.ofMoment start
  | none => SubmissionId.ofMoment start

/-- The submission to save, under its `nextShortId` and late by its start. -/
def graded (t : Ticket) (start finish : Moment) (history : List Grade) (p : Points) : Submission :=
  let short := nextShortId start history
  { grade := {
      id := SubmissionId.full t.course.id t.assignment.id t.email short
      shortId := short
      courseId := t.course.id
      assignmentId := t.assignment.id
      user := t.email
      message := t.message
      maxPoints := p.maxPoints
      score := p.score
      startTime := start
      endTime := finish
      late := t.assignment.isOverdue start }
    files := t.files.filenames }

/-- How submitting ends when nothing fails: with a grade that is saved, or with a refusal, which is
an ordinary answer. -/
inductive SubmitAnswer where
  | graded (g : Grade)
  | rejected (r : Rejection)
deriving DecidableEq

/-- Save what was graded.  Who finds no number left for it (`hasNext`) breaks down. -/
def saveGraded (t : Ticket) (start finish : Moment) (history : List Grade) (p : Points)
    (b : Backend) :
    Except Fault Backend :=
  if hasNext start history then
    match b.save (graded t start finish history p) with
    | .error e => .error (.store e)
    | .ok b => .ok b
  else .error .brokenDown

/-- Grade an admitted submission and save it.  Where the grader fails, or `saveGraded` does, the
store stays as it was. -/
def record (t : Ticket) (start : Moment) (history : List Grade) (s : Server) :
    Except Fault SubmitAnswer × Server :=
  let (answer, s) := s.grade (job t s.disk)
  match answer with
  | .error e => (.error (.gradingFailed e.message), s)
  | .ok p =>
    match saveGraded t start s.clock history p s.backend with
    | .error f => (.error f, s)
    | .ok backend =>
      (.ok (.graded (graded t start s.clock history p).grade), { s with backend := backend })

/-- All steps, by whoever has the lock: the history, admission (`judge`), and then `record`. -/
def submitLocked (t : Ticket) (s : Server) : Except Fault SubmitAnswer × Server :=
  match s.backend.history t.key with
  | .error e => (.error (.store e), s)
  | .ok history =>
    let start := s.clock
    match judge t start history with
    | .error r => (.ok (.rejected r), { s with metrics := s.metrics.countRejected r })
    | .ok () => record t start history { s with metrics := s.metrics.countAdmitted }

def takeLock (t : Ticket) (s : Server) : Nat × Server :=
  (s.nextRequest, { s with
    locks := s.locks.acquire s.nextRequest t.key, nextRequest := s.nextRequest + 1 })

/-- Submit: take the lock of the ticket's key, go through the steps (`submitLocked`), and give up
the lock however they ended. -/
def submit (m : Materialized SubmitRequest) (s : Server) : Except Fault SubmitAnswer × Server :=
  match ticket m with
  | .error f => (.error f, s)
  | .ok t =>
    let (request, s) := takeLock t s
    let (answer, s) := submitLocked t s
    (answer, { s with locks := s.locks.release request })

/-! ## The answer -/

def SubmitAnswer.writeJson : SubmitAnswer → Except Unwritable Value
  | .rejected r =>
    .ok (.object [("grading-success", .bool false), ("rejected", .bool true),
      ("message", .string r.message), ("grading-info", .null)])
  | .graded g => do
    let info ← g.writeJson
    .ok (.object [("grading-success", .bool true), ("rejected", .bool false),
      ("message", .string ""), ("grading-info", info)])

end Endpoint

/-- The reply of a route to a request that was submitted.  A handler that breaks down sends nothing;
that is what `Fault.brokenDown` stands for here. -/
def Reply.ofAnswer : Except Fault Endpoint.SubmitAnswer → Reply
  | .ok a => ofContent a.writeJson
  | .error f => if f = .brokenDown then .crashed else .refused f

namespace Endpoint

/-- The route that grades files. -/
def submitRoute : Route :=
  Route.of (Route.path "courses/assignments/submissions/submit") submitKind fun m s =>
    let (answer, s) := submit m s
    (Reply.ofAnswer answer, s)

end Endpoint
end Coursework
