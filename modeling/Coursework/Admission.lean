import Coursework.Course

/-!
# Admission of a submission

`evaluate` decides whether a submission may be graded, from the policies of the assignment, the role
of the submitter, the time, and the times of the earlier submissions.  Three rules apply in order:
overdue work may have to be acknowledged, the number of attempts in all may be limited, and, except
for staff, so may the number inside a window that ends now.
-/

set_option autoImplicit false

namespace Coursework

open Json Time

/-- Why a submission is refused.  Under `windowMax` the window holds as many attempts as it may, the
first of them at `earliest`, from which `retry?` takes when to come back. -/
inductive Rejection where
  | maxAttempts (max : Int)
  | windowMax (allowed : Int) (duration : Span) (earliest : Moment)
  /-- The work is overdue, and the submitter does not say that they know. -/
  | missingLateAcknowledgment
deriving DecidableEq, Repr

/-- What admission depends on: the assignment, the role of the submitter, what they say of being
late (`lateAcknowledged`), the clock and the times of their `earlier` submissions. -/
structure Attempt where
  assignment : Assignment
  role : CourseRole
  lateAcknowledged : Bool
  now : Moment
  earlier : List Moment

namespace Admission

/-- The moment with the least instant, and of several such the first in the list. -/
def earliest? : List Moment → Option Moment
  | [] => none
  | t :: rest =>
    match earliest? rest with
    | none => some t
    | some u => if u.instant < t.instant then some u else some t

/-- Whether `t` lies in the window of `length` seconds that ends at `now`, both ends included.  A
window that begins before all representable time has no beginning. -/
def inWindow (now : Moment) (length : Int) (t : Moment) : Bool :=
  (match now.minus? length with
    | some start => decide (start.instant ≤ t.instant)
    | none => true)
  && decide (t.instant ≤ now.instant)

/-- Overdue work is refused if the policy asks for an acknowledgment
(`LatePolicy.needsAcknowledgment`) and the submitter gives none. -/
def checkLate (a : Attempt) : Except Rejection Unit :=
  match a.assignment.latePolicy with
  | none => .ok ()
  | some p =>
    if p.needsAcknowledgment && a.assignment.isOverdue a.now && !a.lateAcknowledged then
      .error .missingLateAcknowledgment
    else .ok ()

/-- The attempts in all stay below their number, if `AttemptLimit.effectiveMax?` gives one. -/
def checkMax (l : AttemptLimit) (earlier : List Moment) : Except Rejection Unit :=
  match l.effectiveMax? with
  | none => .ok ()
  | some m => if m ≤ (earlier.length : Int) then .error (.maxAttempts m) else .ok ()

/-- The window that ends at `now` holds fewer attempts than it may; if not, the refusal names the
first of those in it (`earliest?`). -/
def checkWindow (w : WindowLimit) (now : Moment) (earlier : List Moment) :
    Except Rejection Unit :=
  let inside := earlier.filter (inWindow now w.duration.total)
  if w.allowed ≤ (inside.length : Int) then
    match earliest? inside with
    | some t => .error (.windowMax w.allowed w.duration t)
    | none => .ok ()
  else .ok ()

/-- Whether a submission may be graded: `checkLate` comes first, then `checkMax`, both for
everybody, and at last `checkWindow`, from which staff is exempt. -/
def evaluate (a : Attempt) : Except Rejection Unit :=
  match checkLate a with
  | .error r => .error r
  | .ok () =>
    match a.assignment.limit with
    | none => .ok ()
    | some l =>
      match checkMax l a.earlier with
      | .error r => .error r
      | .ok () =>
        if a.role.isStaff then .ok ()
        else
          match l.window with
          | none => .ok ()
          | some w => checkWindow w a.now a.earlier

end Admission

namespace Rejection

/-- When the first attempt of a full window has left it, one length of the window after `earliest`,
if there is such a moment. -/
def retry? (duration : Span) (earliest : Moment) : Option Moment :=
  earliest.plus? duration.total

/-- The reason in words.  Where `retry?` finds no moment to name, the text says that one may not
submit again. -/
def message : Rejection → String
  | maxAttempts max =>
    "Reached the maximum number of submissions (" ++ Text.decimal max ++ ") for this assignment."
  | windowMax allowed duration earliest =>
    "For this assignment, you may only submit " ++ Text.decimal allowed ++ " time(s) every "
      ++ duration.describe ++ ". Your earliest submission in this window was at "
      ++ earliest.describe ++ ". "
      ++ (match retry? duration earliest with
        | some next => "You may submit again after " ++ next.describe ++ "."
        | none => "You may not submit again.")
  | missingLateAcknowledgment =>
    "Attempting to submit an assignment past its due date without acknowledging that the attempt "
      ++ "is late."

def label : Rejection → String
  | maxAttempts _ => "max-attempts"
  | windowMax _ _ _ => "window-max"
  | missingLateAcknowledgment => "missing-late-acknowledgment"

/-- The reason as a document, unless the time in it cannot be written (`Time.Moment.toJson?`). -/
def toJson? (r : Rejection) : Option Value :=
  match r with
  | maxAttempts max => some (.object [("kind", .string r.label), ("max", .int max)])
  | windowMax allowed duration earliest => do
    let time ← earliest.toJson?
    some (.object [("kind", .string r.label), ("allowed", .int allowed),
      ("duration", duration.toJson), ("earliest", time)])
  | missingLateAcknowledgment => some (.object [("kind", .string r.label)])

end Rejection
end Coursework
