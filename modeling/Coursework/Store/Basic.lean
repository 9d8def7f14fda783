import Coursework.Account
import Coursework.Submission

/-!
# The store

A `Store` holds courses, assignments, accounts and graded submissions, each under a key made of its
own identifiers.  Writing checks what is written; a refused write changes nothing.

The submissions of one user to one assignment are a list by start time, and equal times keep the
order in which they were saved.  Within such a list the short ids differ.
-/

set_option autoImplicit false

namespace Coursework

open Time

/-- Why the store refuses an operation: something that has to be there is not (`notFound`),
something that has to be new is there, or the data breaks a rule.  A `seed` contradicts itself, or
its file (`io`) or its `document` cannot be read; anything else is `internal`. -/
inductive StoreError where
  | notFound (what : String)
  | alreadyExists (what : String)
  | invalid (e : Invalid)
  | seed (detail : String)
  | io (detail : String)
  | document (detail : String)
  | internal (detail : String)
deriving DecidableEq, Repr

def StoreError.message : StoreError → String
  | notFound what => "not found: " ++ what
  | alreadyExists what => "already exists: " ++ what
  | invalid e => "invalid data: " ++ e.message
  | seed detail => "seed error: " ++ detail
  | io detail => "io error: " ++ detail
  | document detail => "serialization error: " ++ detail
  | internal detail => "internal error: " ++ detail

/-- What the submissions of one user to one assignment are kept under. -/
structure SubmissionKey where
  course : String
  assignment : String
  email : String
deriving DecidableEq, Repr

/-- Courses, assignments, accounts and submissions.  Assignments are kept by the course and their
own identifier; the submissions under a `SubmissionKey` are a list by start time. -/
structure Store where
  courses : Table String Course
  assignments : Table (String × String) Assignment
  accounts : Table String Account
  submissions : Table SubmissionKey (List Submission)
deriving DecidableEq

namespace Store

def empty : Store :=
  ⟨Table.empty, Table.empty, Table.empty, Table.empty⟩

instance : Inhabited Store := ⟨empty⟩

/-! ## Courses and assignments -/

def course? (s : Store) (id : String) : Option Course :=
  s.courses.find? id

/-- Add or replace a course whose identifier is proper (`Course.validate`). -/
def putCourse (s : Store) (c : Course) : Except StoreError Store :=
  match c.validate with
  | .error e => .error (.invalid e)
  | .ok () => .ok { s with courses := s.courses.insert c.id c }

def assignment? (s : Store) (course id : String) : Option Assignment :=
  s.assignments.find? (course, id)

/-- Add or replace an assignment of a course that is there, after `Assignment.validate`. -/
def putAssignment (s : Store) (a : Assignment) : Except StoreError Store :=
  match a.validate with
  | .error e => .error (.invalid e)
  | .ok () =>
    if s.courses.contains a.courseId then
      .ok { s with assignments := s.assignments.insert (a.courseId, a.id) a }
    else .error (.notFound ("course " ++ a.courseId))

/-- The assignments of a course, by identifier. -/
def assignmentsOf (s : Store) (course : String) : List Assignment :=
  ((s.assignments.entries.filter fun e => e.1.1 == course).map Prod.snd).mergeSort
    fun a b => decide (a.id ≤ b.id)

/-! ## Accounts -/

def account? (s : Store) (email : String) : Option Account :=
  s.accounts.find? email

/-- Add or replace an account; its email is not blank.  It is kept under its email as it is, blanks
included. -/
def putAccount (s : Store) (a : Account) : Except StoreError Store :=
  if Text.trim a.email = "" then .error (.internal "user email must not be empty")
  else .ok { s with accounts := s.accounts.insert a.email a }

def accountList (s : Store) : List Account :=
  (s.accounts.entries.map Prod.snd).mergeSort fun a b => decide (a.email ≤ b.email)

/-- How the roster of a course shows an account that the course lists.  The role is that of the
enrollment, not the one by `Account.courseRole?`. -/
def listedAs? (course : String) (a : Account) : Option RosterEntry :=
  (a.courses.find? course).map fun role => ⟨a.email, a.name, role⟩

/-- The users listed in a course that is there (`listedAs?`), by email. -/
def roster (s : Store) (course : String) : Except StoreError (List RosterEntry) :=
  if s.courses.contains course then
    .ok (((s.accounts.entries.map Prod.snd).filterMap (listedAs? course)).mergeSort
      fun a b => decide (a.email ≤ b.email))
  else .error (.notFound ("course " ++ course))

/-! ## Submissions -/

def submissionsOf (s : Store) (key : SubmissionKey) : List Submission :=
  (s.submissions.find? key).getD []

/-- Put a submission behind all that do not start later, so that equal times keep the order in which
they were saved. -/
def insertByStart (r : Submission) : List Submission → List Submission
  | [] => [r]
  | q :: rest =>
    if r.grade.startTime.instant < q.grade.startTime.instant then r :: q :: rest
    else q :: insertByStart r rest

def keyOf (r : Submission) : SubmissionKey :=
  ⟨r.grade.courseId, r.grade.assignmentId, r.grade.user⟩

/-- Save a submission whose short id is new under its key; else nothing changes. -/
def save (s : Store) (r : Submission) : Except StoreError Store :=
  let records := s.submissionsOf (keyOf r)
  if records.any fun q => q.grade.shortId == r.grade.shortId then
    .error (.alreadyExists ("submission " ++ r.grade.id))
  else .ok { s with submissions := s.submissions.insert (keyOf r) (insertByStart r records) }

def submission? (s : Store) (key : SubmissionKey) (short : String) : Option Submission :=
  (s.submissionsOf key).find? fun r => r.grade.shortId == short

/-- The last submission under a key, which is the last of those that start last. -/
def latest? (s : Store) (key : SubmissionKey) : Option Submission :=
  (s.submissionsOf key).getLast?

def history (s : Store) (key : SubmissionKey) : List Grade :=
  (s.submissionsOf key).map Submission.grade

end Store
end Coursework
