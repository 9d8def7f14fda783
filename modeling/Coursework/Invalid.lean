/-!
# What is wrong with a piece of course data

The rules on roles, digests, policies and identifiers refuse data with an `Invalid`: the subject
that was looked at, and what is wrong with it in words.
-/

set_option autoImplicit false

namespace Coursework

inductive Subject where
  | role
  | digest
  | submissionLimit
  | latePolicy
  | submissionId
  | course
  | document
deriving DecidableEq, Repr

/-- A piece of data that breaks a rule: what it was meant to be (`subject`), and what is wrong with
it (`detail`). -/
structure Invalid where
  subject : Subject
  detail : String
deriving DecidableEq, Repr

def Subject.heading : Subject → String
  | .role => "invalid role: "
  | .digest => "invalid hash: "
  | .submissionLimit => "invalid submission limit: "
  | .latePolicy => "invalid late policy: "
  | .submissionId => "invalid submission ID: "
  | .course => "invalid course data: "
  | .document => "serialization error: "

/-- The `detail` under the heading of its `subject`. -/
def Invalid.message (e : Invalid) : String :=
  e.subject.heading ++ e.detail

end Coursework
