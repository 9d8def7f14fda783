import Coursework.Course

/-!
# Graded submissions

A graded submission has a **short id**, its start in seconds, and a **full id**, which puts course,
assignment and user in front of it.  Whoever asks for a submission may use either.
-/

set_option autoImplicit false

namespace Coursework

open Json Time

/-! ## Identifiers of submissions -/

namespace SubmissionId

/-- The full id of a submission: course, assignment, email and short id with `::` in between, none
of them escaped. -/
def full (course assignment email short : String) : String :=
  Text.join "::" [course, assignment, email, short]

/-- The short id that the clock suggests: the seconds since the beginning of 1970, which
`Endpoint.nextShortId` moves on if they are taken. -/
def ofMoment (t : Moment) : String :=
  Text.decimal t.unixSeconds

/-- The short form of an id in either form, for one user's submissions to one assignment.  What has
no `::` in it is a short id already; a full id has to come apart into four pieces, of which the
first three are `course`, `assignment` and `email`. -/
def short (id course assignment email : String) : Except Invalid String :=
  let id := Text.trim id
  if id = "" then .error ⟨.submissionId, "empty submission id"⟩
  else
    match (Text.pieces id.toList).map String.ofList with
    | [_] => .ok id
    | [c, a, u, s] =>
      if s = "" then .error ⟨.submissionId, "malformed submission id '" ++ id ++ "'"⟩
      else if c = course ∧ a = assignment ∧ u = email then .ok s
      else
        .error ⟨.submissionId, "submission '" ++ id ++ "' does not belong to " ++ email ++ " in "
          ++ course ++ "/" ++ assignment⟩
    | _ => .error ⟨.submissionId, "malformed submission id '" ++ id ++ "'"⟩

end SubmissionId

/-! ## Records -/

/-- The outcome of grading a submission, under its full `id` and its `shortId`. -/
structure Grade where
  id : String
  shortId : String
  courseId : String
  assignmentId : String
  user : String
  message : String
  maxPoints : Float
  score : Float
  startTime : Moment
  endTime : Moment
  late : Bool
deriving DecidableEq

/-- A graded submission as the store keeps it: its `Grade`, the names of its files and what the
submitter wrote. -/
structure Submission where
  grade : Grade
  files : List String
deriving DecidableEq

namespace Grade

def decode : Decoder Grade := fun s => do
  let f ← Decode.record?
    ["id", "short-id", "course-id", "assignment-id", "user", "message", "max-points", "score",
      "grading-start-time", "grading-end-time", "late"] s
  let id ← f.required "id" Decode.string
  let shortId ← f.required "short-id" Decode.string
  let courseId ← f.required "course-id" Decode.string
  let assignmentId ← f.required "assignment-id" Decode.string
  let user ← f.required "user" Decode.string
  let message ← f.orElse "message" "" Decode.string
  let maxPoints ← f.required "max-points" Decode.float
  let score ← f.required "score" Decode.float
  let startTime ← f.required "grading-start-time" Moment.decode
  let endTime ← f.required "grading-end-time" Moment.decode
  let late ← f.orElse "late" false Decode.bool
  some ⟨id, shortId, courseId, assignmentId, user, message, maxPoints, score, startTime, endTime,
    late⟩

/-- A grade as a document, or the component of a time in it that cannot be written
(`Unwritable`). -/
def writeJson (g : Grade) : Except Unwritable Value := do
  let start ← g.startTime.writeRfc3339
  let finish ← g.endTime.writeRfc3339
  .ok (.object [("id", .string g.id), ("short-id", .string g.shortId),
    ("course-id", .string g.courseId), ("assignment-id", .string g.assignmentId),
    ("user", .string g.user), ("message", .string g.message),
    ("max-points", .float g.maxPoints), ("score", .float g.score),
    ("grading-start-time", .string start), ("grading-end-time", .string finish),
    ("late", .bool g.late)])

def toJson? (g : Grade) : Option Value :=
  g.writeJson.toOption

end Grade

namespace Submission

def decode : Decoder Submission := fun s => do
  let f ← Decode.record? ["info", "files"] s
  let grade ← f.required "info" Grade.decode
  let files ← f.orElse "files" [] (Decode.list Decode.string)
  some ⟨grade, files⟩

/-- A submission as a document, on the terms of `Grade.writeJson`. -/
def writeJson (s : Submission) : Except Unwritable Value := do
  let info ← s.grade.writeJson
  .ok (.object [("info", info), ("files", .array (s.files.map .string))])

def toJson? (s : Submission) : Option Value :=
  s.writeJson.toOption

end Submission
end Coursework
