import Coursework.Service.Route

/-!
# Acting on another user

Some requests name the user they are about.  Everybody may ask about themselves; only staff may ask
about others, and learn whether these have a role in the course.
-/

set_option autoImplicit false

namespace Coursework
namespace Endpoint

/-- The user that a request is about, and whether that is a user with a role in the course
(`found`). -/
structure Target where
  email : String
  found : Bool
deriving DecidableEq, Repr

/-- The user that a request of a sender in a course is about: the sender when nobody is named, and
else the named one, whom only staff may name if it is not the sender. -/
def findTarget (b : Backend) (i : Identity) (course : Course) (named : String) :
    Except Fault Target :=
  let email := Text.trim named
  if email = "" ∨ email = i.account.email then .ok ⟨i.account.email, true⟩
  else if i.hasRole .grader then
    match b.account? email with
    | .error e => .error (.store e)
    | .ok none => .ok ⟨email, false⟩
    | .ok (some a) => .ok ⟨email, (a.courseRole? course.id).isSome⟩
  else .error (.targetUserDenied email)

/-- The user that a materialized request is about (`findTarget`), which takes a sender and a
course. -/
def resolveTarget {R : Type} (b : Backend) (m : Materialized R) (named : String) :
    Except Fault Target :=
  match m.needIdentity with
  | .error f => .error f
  | .ok i =>
    match m.needCourse with
    | .error f => .error f
    | .ok c => findTarget b i c named

end Endpoint
end Coursework
