import Coursework.Policy

/-!
# Courses, assignments and rosters
-/

set_option autoImplicit false

namespace Coursework

open Json Time

/-! ## Identifiers -/

def isIdChar (c : Char) : Bool :=
  (97 ≤ c.toNat && c.toNat ≤ 122) || (48 ≤ c.toNat && c.toNat ≤ 57)
    || c == '.' || c == '_' || c == '-'

/-- An identifier is not empty, and each character of it is an `isIdChar`: a small ASCII letter, a
digit, a point, an underscore or a hyphen.  The message names the `kind` of thing that was to be
identified. -/
def validateId (kind id : String) : Except Invalid Unit :=
  if id = "" then .error ⟨.course, kind ++ " id must not be empty"⟩
  else if id.toList.all isIdChar then .ok ()
  else
    .error ⟨.course, kind ++ " id '" ++ id
      ++ "' must only contain lowercase letters, digits, '.', '_', or '-'"⟩

/-! ## Courses -/

/-- A course of the server, by the identifier under which `Store` keeps it. -/
structure Course where
  id : String
  name : String
deriving DecidableEq, Repr

namespace Course

def validate (c : Course) : Except Invalid Unit :=
  validateId "course" c.id

def decode : Decoder Course := fun s => do
  let f ← Decode.record? ["id", "name"] s
  let id ← f.required "id" Decode.string
  let name ← f.orElse "name" "" Decode.string
  some ⟨id, name⟩

def toJson (c : Course) : Value :=
  .object [("id", .string c.id), ("name", .string c.name)]

end Course

/-! ## Assignments -/

/-- An assignment of a course, with the limits that `Admission.evaluate` asks about. -/
structure Assignment where
  id : String
  courseId : String
  name : String
  dueDate : Option Moment
  maxPoints : Float
  limit : Option AttemptLimit
  latePolicy : Option LatePolicy
deriving DecidableEq

def Time.Moment.decode : Decoder Moment := fun s =>
  (Decode.string s).bind Moment.ofRfc3339?

/-- A moment as a document, in the form of RFC 3339, which has no way to write some years and
offsets. -/
def Time.Moment.toJson? (t : Moment) : Option Value :=
  t.rfc3339?.map .string

namespace Assignment

/-- Both identifiers are proper (`validateId`), and so are the limits on attempts and the policy for
overdue work. -/
def validate (a : Assignment) : Except Invalid Unit := do
  validateId "course" a.courseId
  validateId "assignment" a.id
  match a.limit with
  | some l => l.validate
  | none => .ok ()
  match a.latePolicy with
  | some p => p.validate
  | none => .ok ()

/-- Whether the due date has passed at `now`; an assignment without one is never overdue. -/
def isOverdue (a : Assignment) (now : Moment) : Bool :=
  match a.dueDate with
  | some due => decide (due.instant < now.instant)
  | none => false

/-- Read an assignment from a document, in which everything but its own identifier may be
missing. -/
def decode : Decoder Assignment := fun s => do
  let f ← Decode.record?
    ["id", "course-id", "name", "due-date", "max-points", "submission-limit", "late-policy"] s
  let id ← f.required "id" Decode.string
  let courseId ← f.orElse "course-id" "" Decode.string
  let name ← f.orElse "name" "" Decode.string
  let dueDate ← f.orElse "due-date" none (Decode.optional Moment.decode)
  let maxPoints ← f.orElse "max-points" 0.0 Decode.float
  let limit ← f.orElse "submission-limit" none (Decode.optional AttemptLimit.decode)
  let latePolicy ← f.orElse "late-policy" none (Decode.optional LatePolicy.decode)
  some ⟨id, courseId, name, dueDate, maxPoints, limit, latePolicy⟩

def writeJson (a : Assignment) : Except Unwritable Value := do
  let dueDate ← match a.dueDate with
    | some t => t.writeRfc3339.map Value.string
    | none => .ok .null
  .ok (.object [("id", .string a.id), ("course-id", .string a.courseId),
    ("name", .string a.name), ("due-date", dueDate), ("max-points", .float a.maxPoints),
    ("submission-limit", .optional AttemptLimit.toJson a.limit),
    ("late-policy", .optional LatePolicy.toJson a.latePolicy)])

/-- What `writeJson` writes, for readers who do not ask which component was in the way. -/
def toJson? (a : Assignment) : Option Value :=
  a.writeJson.toOption

end Assignment

/-! ## Rosters -/

structure RosterEntry where
  email : String
  name : Option String
  role : CourseRole
deriving DecidableEq, Repr

namespace RosterEntry

def decode : Decoder RosterEntry := fun s => do
  let f ← Decode.record? ["email", "name", "role"] s
  let email ← f.required "email" Decode.string
  let name ← f.orElse "name" none (Decode.optional Decode.string)
  let role ← f.required "role" CourseRole.decode
  some ⟨email, name, role⟩

def toJson (e : RosterEntry) : Value :=
  .object [("email", .string e.email), ("name", .optional .string e.name),
    ("role", e.role.toJson)]

end RosterEntry
end Coursework
