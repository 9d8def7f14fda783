import Coursework.Invalid
import Coursework.Json.Decode

/-!
# Roles

A user has a role in each course that lists them, and one role on the whole server.  Course roles
are ordered by privilege, and a requirement names the least role that meets it.  Every server role
but the plain one acts as owner in all courses.
-/

set_option autoImplicit false

namespace Coursework

open Json

/-! ## Roles in a course -/

/-- A role in a course, from the least privileged to the most (`level`).  Somebody listed as `other`
has no privilege at all, and `grader` is the first role that counts as staff (`isStaff`). -/
inductive CourseRole where
  | other
  | student
  | grader
  | admin
  | owner
deriving DecidableEq, Repr

namespace CourseRole

def all : List CourseRole :=
  [other, student, grader, admin, owner]

def level : CourseRole → Nat
  | other => 0
  | student => 1
  | grader => 2
  | admin => 3
  | owner => 4

/-- Whether the role `r` meets the requirement `required`: by `level` alone, so that a role meets
whatever a less privileged one meets. -/
def satisfies (r required : CourseRole) : Bool :=
  decide (required.level ≤ r.level)

/-- Whether a role is at least that of a grader. -/
def isStaff (r : CourseRole) : Bool :=
  r.satisfies grader

def max (a b : CourseRole) : CourseRole :=
  if a.level ≤ b.level then b else a

def name : CourseRole → String
  | other => "other"
  | student => "student"
  | grader => "grader"
  | admin => "admin"
  | owner => "owner"

def ofName? (s : String) : Option CourseRole :=
  all.find? fun r => r.name == s

/-- The role with a name, as `ofName?` finds it, or the complaint that quotes the name as it was
given. -/
def parse (s : String) : Except Invalid CourseRole :=
  match ofName? s with
  | some r => .ok r
  | none => .error ⟨.role, "unknown course role: " ++ s⟩

def decode : Decoder CourseRole :=
  Decode.named ofName?

def toJson (r : CourseRole) : Value :=
  .string r.name

end CourseRole

/-! ## Roles on the server -/

/-- A role on the whole server.  A `user` is privileged by their courses alone; `root` is the role
of a trusted local caller (`Account.root`). -/
inductive ServerRole where
  | user
  | admin
  | owner
  | root
deriving DecidableEq, Repr

namespace ServerRole

def all : List ServerRole :=
  [user, admin, owner, root]

def name : ServerRole → String
  | user => "user"
  | admin => "admin"
  | owner => "owner"
  | root => "root"

def ofName? (s : String) : Option ServerRole :=
  all.find? fun r => r.name == s

def parse (s : String) : Except Invalid ServerRole :=
  match ofName? s with
  | some r => .ok r
  | none => .error ⟨.role, "unknown server role: " ++ s⟩

/-- The role that a server role gives in every course, whether or not the user is listed there.
`Account.courseRole?` prefers it to the role of an enrollment. -/
def impliedCourseRole? : ServerRole → Option CourseRole
  | user => none
  | admin | owner | root => some .owner

def decode : Decoder ServerRole :=
  Decode.named ofName?

def toJson (r : ServerRole) : Value :=
  .string r.name

end ServerRole
end Coursework
