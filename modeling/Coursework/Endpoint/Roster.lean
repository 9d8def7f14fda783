import Coursework.Service.Route

/-!
# The roster of a course

`courses/users/list` shows staff who is listed in a course.  The roster is a field of the request
that the server fills in; nothing that a client sends can reach it.
-/

set_option autoImplicit false

namespace Coursework
namespace Endpoint

open Json

/-- How a request for the roster is read.  It has no field of its own; the roster is filled in by
`Request.fillFields`, and what a client sends under its name is not read. -/
def rosterKind : RequestKind (List RosterEntry) where
  name := "ListUsersRequest"
  schema := Schema.build [.course, .marker .grader, .field ⟨"users", .roster, true⟩]
  decode := RequestKind.decodeWith [] fun _ => some []
  hydrate _ field value :=
    match value with
    | .roster entries =>
      if field = "users" then .ok entries else .error (RequestKind.unexpectedField field)
    | .files _ => .error (RequestKind.unexpectedField field)

/-- Show the roster, by email. -/
def listUsers (m : Materialized (List RosterEntry)) : Value :=
  let sorted := m.request.mergeSort fun a b => decide (a.email ≤ b.email)
  .object [("users", .array (sorted.map RosterEntry.toJson))]

def rosterRoute : Route :=
  Route.of (Route.path "courses/users/list") rosterKind fun m s =>
    (Reply.ofContent (.ok (listUsers m)), s)

end Endpoint
end Coursework
