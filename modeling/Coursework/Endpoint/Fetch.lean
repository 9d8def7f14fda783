import Coursework.Endpoint.Target

/-!
# Looking at graded submissions

`peek` shows one submission of a user, the last one unless another is named, and `history` shows
them all.  Both say whether the user they are about was found.
-/

set_option autoImplicit false

namespace Coursework
namespace Endpoint

open Json Time

/-- The schema of both endpoints: an assignment, and the role of a student in its course. -/
def fetchSchema : Schema :=
  Schema.build [.assignment, .marker .student]

/-! ## One submission -/

/-- A request for one submission, by its id in either form (`SubmissionId.short`); blank for the
last one. -/
structure PeekRequest where
  targetEmail : String
  /-- The id of the submission in either form; blank for the last one. -/
  targetSubmission : String
deriving DecidableEq, Repr

def peekKind : RequestKind PeekRequest where
  name := "FetchUserPeekRequest"
  schema := fetchSchema
  decode := RequestKind.decodeWith ["target-email", "target-submission"] fun f => do
    let email ← f.orElse "target-email" "" Decode.string
    let submission ← f.orElse "target-submission" "" Decode.string
    some ⟨email, submission⟩
  hydrate := RequestKind.hydrateNone

/-- What a request for one submission finds.  Where the target is no user with a role in the course,
no submission is looked for. -/
structure Peeked where
  foundUser : Bool
  grade : Option Grade
deriving DecidableEq

/-- The short id that a request asks for, if it names a submission and does not leave that blank. -/
def askedId (named : String) (key : SubmissionKey) : Except Fault (Option String) :=
  let id := Text.trim named
  if id = "" then .ok none
  else
    match SubmissionId.short id key.course key.assignment key.email with
    | .ok short => .ok (some short)
    | .error e => .error (.invalid e)

/-- Look up one submission of the target (`resolveTarget`), the one that is named or the last. -/
def peek (b : Backend) (m : Materialized PeekRequest) : Except Fault Peeked := do
  let course ← m.needCourse
  let assignment ← m.needAssignment
  let target ← resolveTarget b m m.request.targetEmail
  if target.found then
    let key : SubmissionKey := ⟨course.id, assignment.id, target.email⟩
    let short ← askedId m.request.targetSubmission key
    let found ← Fault.ofStore (b.submission? key short)
    .ok ⟨true, found.map Submission.grade⟩
  else .ok ⟨false, none⟩

/-- What was found as a document, or the component of a time in it that cannot be written. -/
def Peeked.writeJson (p : Peeked) : Except Unwritable Value := do
  let grade ← match p.grade with
    | some g => g.writeJson
    | none => .ok .null
  .ok (.object [("found-user", .bool p.foundUser), ("found-submission", .bool p.grade.isSome),
    ("submission", grade)])

def peekRoute : Route :=
  Route.of (Route.path "courses/assignments/submissions/fetch/user/peek") peekKind fun m s =>
    (Reply.ofResult ((peek s.backend m).map Peeked.writeJson), s)

/-! ## All submissions -/

structure HistoryRequest where
  targetEmail : String
deriving DecidableEq, Repr

def historyKind : RequestKind HistoryRequest where
  name := "FetchUserHistoryRequest"
  schema := fetchSchema
  decode := RequestKind.decodeWith ["target-email"] fun f => do
    let email ← f.orElse "target-email" "" Decode.string
    some ⟨email⟩
  hydrate := RequestKind.hydrateNone

structure History where
  foundUser : Bool
  grades : List Grade
deriving DecidableEq

/-- Look up all submissions of the target.  They are grades, in the order of `Store.history`. -/
def history (b : Backend) (m : Materialized HistoryRequest) : Except Fault History := do
  let course ← m.needCourse
  let assignment ← m.needAssignment
  let target ← resolveTarget b m m.request.targetEmail
  if target.found then
    let grades ← Fault.ofStore (b.history ⟨course.id, assignment.id, target.email⟩)
    .ok ⟨true, grades⟩
  else .ok ⟨false, []⟩

/-- Grades in their order as documents, or the component of the first time among them that cannot be
written. -/
def writeGrades : List Grade → Except Unwritable (List Value)
  | [] => .ok []
  | g :: rest => do
    let v ← g.writeJson
    let vs ← writeGrades rest
    .ok (v :: vs)

def History.writeJson (h : History) : Except Unwritable Value := do
  let grades ← writeGrades h.grades
  .ok (.object [("found-user", .bool h.foundUser), ("history", .array grades)])

def historyRoute : Route :=
  Route.of (Route.path "courses/assignments/submissions/fetch/user/history") historyKind
    fun m s => (Reply.ofResult ((history s.backend m).map History.writeJson), s)

end Endpoint
end Coursework
