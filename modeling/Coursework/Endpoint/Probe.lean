import Coursework.Endpoint.Target

/-!
# Probes

A probe is a route for finding out how requests are materialized.  Its schema is free, and it
answers with what it was given: the sender, the course, the assignment, and the fields that were
filled, in their order.  It can also be told to fail in a given way.
-/

set_option autoImplicit false

namespace Coursework
namespace Endpoint

open Json Time

/-- What a probe does with a materialized request: show everything (`present`), insist on a user, a
course and an assignment first (`need`), show whom the request is about (`target`), fail or break
down. -/
inductive ProbeMode where
  | present
  | need
  | target
  | fail (f : Fault)
  | crash
deriving DecidableEq, Repr

/-- A request to a probe, which has what the server filled in and the `order` in which it did. -/
structure ProbeRequest where
  targetEmail : String
  roster : Option (List RosterEntry)
  files : Option UploadSet
  order : List String
deriving DecidableEq, Repr

/-- A probe that shows what it was given.  It may name a user, and takes any field. -/
def fullProbeKind (schema : Schema) : RequestKind ProbeRequest where
  name := "ProbeRequest"
  schema := schema
  decode := RequestKind.decodeWith ["target-email"] fun f => do
    let email ← f.orElse "target-email" "" Decode.string
    some ⟨email, none, none, []⟩
  hydrate r field value :=
    match value with
    | .roster entries => .ok { r with roster := some entries, order := r.order ++ [field] }
    | .files set => .ok { r with files := some set, order := r.order ++ [field] }

/-- A plain probe, whose requests have nothing beside their context and refuse every field
(`hydrateNone`). -/
def plainProbeKind (schema : Schema) : RequestKind ProbeRequest where
  name := "PlainProbeRequest"
  schema := schema
  decode := RequestKind.decodeWith [] fun _ => some ⟨"", none, none, []⟩
  hydrate := RequestKind.hydrateNone

def probeKind (schema : Schema) (plain : Bool) : RequestKind ProbeRequest :=
  if plain then plainProbeKind schema else fullProbeKind schema

def identityToJson (i : Identity) : Value :=
  .object [("email", .string i.account.email), ("server-role", i.account.role.toJson),
    ("course-role", .optional CourseRole.toJson i.courseRole), ("via-nonce", .bool i.viaNonce),
    ("has", .array ((CourseRole.all.filter i.hasRole).map CourseRole.toJson))]

def filesToJson (d : Disk) (set : UploadSet) : Value :=
  .array ((set.filenames.zip (set.contents d)).map fun f =>
    .object [("name", .string f.1), ("hex", .string (Text.hex f.2))])

/-- Everything a probe was given, or the component of a time in it that cannot be written. -/
def presentAll (m : Materialized ProbeRequest) (d : Disk) : Except Unwritable Value := do
  let assignment ← match m.assignment with
    | some a => a.writeJson
    | none => .ok .null
  .ok (.object [("user", .optional identityToJson m.identity),
    ("course", .optional Course.toJson m.course), ("assignment", assignment),
    ("roster", .optional (fun es => .array (es.map RosterEntry.toJson)) m.request.roster),
    ("files", .optional (filesToJson d) m.request.files),
    ("order", .array (m.request.order.map .string))])

/-- Everything a probe was given, when there is a user, a course and an assignment, which are asked
for in this order. -/
def presentNeeded (m : Materialized ProbeRequest) (d : Disk) :
    Except Fault (Except Unwritable Value) := do
  let _ ← m.needIdentity
  let _ ← m.needCourse
  let _ ← m.needAssignment
  .ok (presentAll m d)

def presentTarget (m : Materialized ProbeRequest) (b : Backend) : Except Fault Value := do
  let target ← resolveTarget b m m.request.targetEmail
  .ok (.object [("email", .string target.email), ("found", .bool target.found)])

def presentPlain (m : Materialized ProbeRequest) : Value :=
  .object [("email", .optional (fun i => .string i.account.email) m.identity)]

/-- What a probe answers, by its `ProbeMode`.  Nothing of the server changes but what materializing
it changed before. -/
def probe (mode : ProbeMode) (plain : Bool) (m : Materialized ProbeRequest) (s : Server) :
    Reply × Server :=
  if plain then (.ofContent (.ok (presentPlain m)), s)
  else
    match mode with
    | .present => (.ofContent (presentAll m s.disk), s)
    | .need => (.ofResult (presentNeeded m s.disk), s)
    | .target => (.ofResult ((presentTarget m s.backend).map .ok), s)
    | .fail f => (.refused f, s)
    | .crash => (.crashed, s)

/-- The route of a probe that was declared with one schema and now has another: a registry goes by
the first, and requests go by the second. -/
def probeRoute (endpoint : String) (declared current : Schema) (mode : ProbeMode) (plain : Bool) :
    Route :=
  { Route.of endpoint (probeKind current plain) (probe mode plain) with schema := declared }

end Endpoint
end Coursework
