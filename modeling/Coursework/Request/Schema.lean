import Coursework.Fault

/-!
# What a request type requires

A `Schema` says which context a request needs, which roles its sender must hold, and which of its
fields the server fills in.  It is put together from clauses; a clause for an assignment brings one
for a course with it, and that one brings one for a user.
-/

set_option autoImplicit false

namespace Coursework

inductive FieldKind where
  | roster
  | files
deriving DecidableEq, Repr

/-- A field that the server fills in.  Only one that is `settable` may be filled from outside the
handler at all. -/
structure ServerField where
  name : String
  kind : FieldKind
  settable : Bool
deriving DecidableEq, Repr

/-- What a request type requires of its sender and of its context, in the `markers` the roles of
which the sender must hold each, and the `fields` that the server fills in, in this order. -/
structure Schema where
  needsUser : Bool
  needsCourse : Bool
  needsAssignment : Bool
  markers : List CourseRole
  fields : List ServerField
deriving DecidableEq, Repr

namespace Schema

def none : Schema := ⟨false, false, false, [], []⟩

/-- A part of a schema, as an endpoint declares it.  An assignment brings a course along, and a
course or a role a user. -/
inductive Clause where
  | user
  | course
  | assignment
  | marker (role : CourseRole)
  | field (f : ServerField)
deriving DecidableEq, Repr

/-- Add a clause, with what it brings along. -/
def add (s : Schema) : Clause → Schema
  | .user => { s with needsUser := true }
  | .course => { s with needsCourse := true, needsUser := true }
  | .assignment => { s with needsAssignment := true, needsCourse := true, needsUser := true }
  | .marker role => { s with markers := s.markers ++ [role] }
  | .field f => { s with fields := s.fields ++ [f] }

def build (clauses : List Clause) : Schema :=
  clauses.foldl add none

/-- The most privileged of the `markers`, which stands for all of them since roles are ordered. -/
def required? (s : Schema) : Option CourseRole :=
  match s.markers with
  | [] => .none
  | r :: rest => some (rest.foldl CourseRole.max r)

/-- A field makes sense: it is settable, and a roster is that of a course. -/
def checkField (needsCourse : Bool) (f : ServerField) : Except Fault Unit :=
  match f.kind with
  | .roster =>
    if !f.settable then .error (.rosterNotSettable f.name)
    else if !needsCourse then .error (.rosterWithoutCourse f.name)
    else .ok ()
  | .files => if !f.settable then .error (.filesNotSettable f.name) else .ok ()

def checkFields (needsCourse : Bool) : List ServerField → Except Fault Unit
  | [] => .ok ()
  | f :: rest =>
    match checkField needsCourse f with
    | .error e => .error e
    | .ok () => checkFields needsCourse rest

/-- The schema makes sense: roles are required in a course only, and every field makes sense
(`checkField`). -/
def validate (s : Schema) : Except Fault Unit :=
  if !s.markers.isEmpty && !s.needsCourse then .error .roleWithoutCourse
  else checkFields s.needsCourse s.fields

/-! ## Documents -/

def fieldToJson (f : ServerField) : Json.Value :=
  .object [("name", .string f.name), ("settable", .bool f.settable),
    ("kind", .string (match f.kind with
      | .roster => "roster"
      | .files => "files"))]

/-- A schema as a document, without a word on whether `validate` lets it pass. -/
def toJson (s : Schema) : Json.Value :=
  .object [("user", .bool s.needsUser), ("course", .bool s.needsCourse),
    ("assignment", .bool s.needsAssignment),
    ("required", .optional CourseRole.toJson s.required?),
    ("fields", .array (s.fields.map fieldToJson))]

end Schema
end Coursework
