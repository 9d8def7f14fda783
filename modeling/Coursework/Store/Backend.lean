import Coursework.Store.Basic

/-!
# A store that may be out of reach

Requests go to the store through a `Backend`, in which some operations may be down for a while.  An
operation that is down fails and changes nothing.
-/

set_option autoImplicit false

namespace Coursework

/-- An operation on the store that can be down by itself. -/
inductive Operation where
  | course
  | assignment
  | roster
  | account
  | putAccount
  | save
  | submission
  | history
deriving DecidableEq, Repr

def Operation.name : Operation → String
  | course => "course"
  | assignment => "assignment"
  | roster => "roster"
  | account => "user"
  | putAccount => "upsert-user"
  | save => "save"
  | submission => "submission"
  | history => "history"

/-- A store, and the operations on it that are `down`: what requests see of a store that some other
machine holds. -/
structure Backend where
  store : Store
  down : List Operation
deriving DecidableEq

namespace Backend

/-- The answer of an operation, unless it is down.  One that is down answers with an internal error
and does nothing. -/
def guarded {α : Type} (b : Backend) (op : Operation) (answer : Except StoreError α) :
    Except StoreError α :=
  if op ∈ b.down then .error (.internal (op.name ++ " backend unavailable")) else answer

def course? (b : Backend) (id : String) : Except StoreError (Option Course) :=
  b.guarded .course (.ok (b.store.course? id))

def assignment? (b : Backend) (course id : String) : Except StoreError (Option Assignment) :=
  b.guarded .assignment (.ok (b.store.assignment? course id))

def roster (b : Backend) (course : String) : Except StoreError (List RosterEntry) :=
  b.guarded .roster (b.store.roster course)

def account? (b : Backend) (email : String) : Except StoreError (Option Account) :=
  b.guarded .account (.ok (b.store.account? email))

def putAccount (b : Backend) (a : Account) : Except StoreError Backend :=
  b.guarded .putAccount ((b.store.putAccount a).map fun s => { b with store := s })

def save (b : Backend) (r : Submission) : Except StoreError Backend :=
  b.guarded .save ((b.store.save r).map fun s => { b with store := s })

/-- The submission with a short id, or the last one (`Store.latest?`) when none is given. -/
def submission? (b : Backend) (key : SubmissionKey) (short : Option String) :
    Except StoreError (Option Submission) :=
  b.guarded .submission (.ok (match short with
    | some short => b.store.submission? key short
    | none => b.store.latest? key))

def history (b : Backend) (key : SubmissionKey) : Except StoreError (List Grade) :=
  b.guarded .history (.ok (b.store.history key))

end Backend
end Coursework
