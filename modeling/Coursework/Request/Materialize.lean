import Coursework.Request.Context
import Coursework.Service.State

/-!
# From the text of a request to a request that may run

A request becomes a `Materialized` one in stages: its text is decoded, its schema is looked at once
more, its course and its assignment are looked up, its sender is identified, the sender's role is
held against the schema, and the fields of the server are filled.  The first stage that fails
decides the answer.

Only two stages leave traces.  Identifying the sender spends the nonce that is shown, and filling in
files puts them into a directory, which is gone again if a later stage fails.
-/

set_option autoImplicit false

namespace Coursework

open Json

/-- Who a request runs as: the account, the role in the course of the request if it has one, and
whether a nonce was shown in place of a password. -/
structure Identity where
  account : Account
  courseRole : Option CourseRole
  viaNonce : Bool
deriving DecidableEq

/-- Whether the role in the course meets a requirement (`CourseRole.satisfies`).  Who has none there
meets none. -/
def Identity.hasRole (i : Identity) (required : CourseRole) : Bool :=
  match i.courseRole with
  | some r => r.satisfies required
  | none => false

/-- A request that may run, with what the stages found: course, assignment, sender, and the
directories that were made for it (`uploads`), which `Route.run` removes again. -/
structure Materialized (R : Type) where
  request : R
  course : Option Course
  assignment : Option Assignment
  identity : Option Identity
  uploads : List UploadSet

namespace Materialized

variable {R : Type}

/-- Who the request runs as, for a handler that cannot do without. -/
def needIdentity (m : Materialized R) : Except Fault Identity :=
  match m.identity with
  | some i => .ok i
  | none => .error (.internal "request has no user context")

def needCourse (m : Materialized R) : Except Fault Course :=
  match m.course with
  | some c => .ok c
  | none => .error (.internal "request has no course context")

def needAssignment (m : Materialized R) : Except Fault Assignment :=
  match m.assignment with
  | some a => .ok a
  | none => .error (.internal "request has no assignment context")

end Materialized

namespace Request

/-! ## Course and assignment -/

/-- An identifier as clients write it, in the form in which it is stored: without blanks at its
ends, and in small letters. -/
def normalId (s : String) : String :=
  Text.lower (Text.trim s)

/-- Look up the assignment that a request names in a course, by its `normalId`. -/
def findAssignment (b : Backend) (context : Context) (course : Course) :
    Except Fault Assignment :=
  let id := normalId context.assignmentId
  if id = "" then .error .missingAssignmentId
  else
    match b.assignment? course.id id with
    | .error e => .error (.store e)
    | .ok none => .error (.assignmentNotFound (course.id ++ "/" ++ id))
    | .ok (some a) => .ok a

/-- Look up the course that a request names, by its `normalId`. -/
def findCourse (b : Backend) (context : Context) : Except Fault Course :=
  let id := normalId context.courseId
  if id = "" then .error .missingCourseId
  else
    match b.course? id with
    | .error e => .error (.store e)
    | .ok none => .error (.courseNotFound id)
    | .ok (some c) => .ok c

/-- Look up what a schema needs of course and assignment.  Where it needs no course, what the
request names is not looked at. -/
def resolve (schema : Schema) (context : Context) (b : Backend) :
    Except Fault (Option Course × Option Assignment) :=
  if schema.needsCourse then
    match findCourse b context with
    | .error e => .error e
    | .ok c =>
      if schema.needsAssignment then
        match findAssignment b context c with
        | .error e => .error e
        | .ok a => .ok (some c, some a)
      else .ok (some c, none)
  else .ok (none, none)

/-! ## The sender -/

/-- An account as the sender of a request in a course, with the role that it has there
(`Account.courseRole?`). -/
def identify (account : Account) (course : Option Course) (viaNonce : Bool) : Identity :=
  ⟨account, course.bind fun c => account.courseRole? c.id, viaNonce⟩

/-- Find the account that email and password of a request name.  Blanks around the email are
dropped; those around the password are not. -/
def checkCredentials (b : Backend) (context : Context) : Except Fault Account :=
  let email := Text.trim context.userEmail
  if email = "" then .error .missingUserEmail
  else
    match b.account? email with
    | .error e => .error (.store e)
    | .ok none => .error (.userNotFound email)
    | .ok (some a) => if a.checkPassword context.userPass then .ok a else .error .badCredentials

/-- Find out who sends a request.  A nonce, when one is shown, decides alone, and is spent
(`Nonces.consume`); else the credentials do. -/
def authenticate (b : Backend) (nonces : Nonces) (context : Context) (course : Option Course) :
    Except Fault Identity × Nonces :=
  if context.nonce = "" then
    ((checkCredentials b context).map fun a => identify a course false, nonces)
  else
    match nonces.consume context.nonce with
    | (true, nonces) => (.ok (identify Account.root course true), nonces)
    | (false, nonces) => (.error .badNonce, nonces)

/-- Hold the sender's role against the most privileged of the roles that a schema requires
(`Schema.required?`). -/
def authorize (schema : Schema) (i : Identity) : Except Fault Unit :=
  match schema.required? with
  | none => .ok ()
  | some required => if i.hasRole required then .ok () else .error .permissionDenied

/-- Find out who sends a request, if its schema asks, and whether they may.  A nonce that was spent
on the way stays spent whatever follows. -/
def admitSender (schema : Schema) (b : Backend) (nonces : Nonces) (context : Context)
    (course : Option Course) : Except Fault (Option Identity) × Nonces :=
  if schema.needsUser then
    match authenticate b nonces context course with
    | (.error e, nonces) => (.error e, nonces)
    | (.ok i, nonces) =>
      match authorize schema i with
      | .error e => (.error e, nonces)
      | .ok () => (.ok (some i), nonces)
  else (.ok none, nonces)

/-! ## Fields -/

/-- What filling the fields of a request has come to: the request so far, or the fault that stopped
it, and the directories made until then. -/
structure Filling (R : Type) where
  request : Except Fault R
  uploads : List UploadSet
  disk : Disk

/-- What the server fills a field with: the roster of the course, or the uploaded files once they
are in a directory. -/
def fieldValue (b : Backend) (root : String) (course : Option Course) (files : List Upload)
    (disk : Disk) (field : ServerField) : Except Fault FieldValue × Disk :=
  match field.kind with
  | .roster =>
    match course with
    | none => (.error (.rosterWithoutCourse field.name), disk)
    | some c =>
      match b.roster c.id with
      | .error e => (.error (.rosterFetchFailed e.message), disk)
      | .ok entries => (.ok (.roster entries), disk)
  | .files =>
    match UploadSet.store disk root files with
    | (.error e, disk) => (.error e, disk)
    | (.ok set, disk) => (.ok (.files set), disk)

def valueUploads : FieldValue → List UploadSet
  | .roster _ => []
  | .files set => [set]

/-- Fill the fields of a request one after the other, each with its `fieldValue`, up to the first
that fails. -/
def fillFields {R : Type} (hydrate : R → String → FieldValue → Except Fault R) (b : Backend)
    (root : String) (course : Option Course) (files : List Upload) (r : R)
    (uploads : List UploadSet) (disk : Disk) : List ServerField → Filling R
  | [] => ⟨.ok r, uploads, disk⟩
  | field :: rest =>
    match fieldValue b root course files disk field with
    | (.error e, disk) => ⟨.error e, uploads, disk⟩
    | (.ok value, disk) =>
      let uploads := uploads ++ valueUploads value
      match hydrate r field.name value with
      | .error e => ⟨.error e, uploads, disk⟩
      | .ok r => fillFields hydrate b root course files r uploads disk rest

/-- The last stage: fill the fields of a request whose sender may.  When that fails, the directories
that were made are removed. -/
def complete {R : Type} (kind : RequestKind R) (files : List Upload) (r : R)
    (course : Option Course) (assignment : Option Assignment) (identity : Option Identity)
    (s : Server) : Except Fault (Materialized R) × Server :=
  let filled := fillFields kind.hydrate s.backend s.uploadRoot course files r [] s.disk
    kind.schema.fields
  match filled.request with
  | .error e => (.error e, { s with disk := UploadSet.discardAll filled.uploads filled.disk })
  | .ok r => (.ok ⟨r, course, assignment, identity, filled.uploads⟩, { s with disk := filled.disk })

/-! ## All stages -/

/-- What a text that holds no request of this type is answered with: the reader's own words for what
is wrong with it (`Wording.document`). -/
def unread {R : Type} (kind : RequestKind R) (content : String) (s : Server) : Fault :=
  .malformedRequest (s.wording.document kind.name (Text.utf8 content))

/-- Materialize a request, stage by stage: `RequestKind.decode`, `Schema.validate`, `resolve`,
`admitSender` and `complete`.  The first that fails decides the answer. -/
def materialize {R : Type} (kind : RequestKind R) (raw : RawRequest) (s : Server) :
    Except Fault (Materialized R) × Server :=
  match decodeText? kind.decode raw.content with
  | none => (.error (unread kind raw.content s), s)
  | some (r, context) =>
    match kind.schema.validate with
    | .error e => (.error e, s)
    | .ok () =>
      match resolve kind.schema context s.backend with
      | .error e => (.error e, s)
      | .ok (course, assignment) =>
        match admitSender kind.schema s.backend s.nonces context course with
        | (.error e, nonces) => (.error e, { s with nonces := nonces })
        | (.ok identity, nonces) =>
          complete kind raw.files r course assignment identity { s with nonces := nonces }

end Request
end Coursework
