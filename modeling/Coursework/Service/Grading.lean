import Coursework.Time.Moment
import Coursework.Uploads

/-!
# Grading

The grader is given from outside.  It sees a `Job` and answers with points or fails; either way it
takes some time.
-/

set_option autoImplicit false

namespace Coursework

/-- One submission to grade, with the files by name in the order of their upload. -/
structure Job where
  course : String
  assignment : String
  user : String
  message : String
  files : List (String × List UInt8)
  maxPoints : Float

def Job.toJson (j : Job) : Json.Value :=
  .object [("course", .string j.course), ("assignment", .string j.assignment),
    ("user", .string j.user), ("message", .string j.message),
    ("filenames", .array (j.files.map fun f => .string f.1)),
    ("contents", .array (j.files.map fun f => .string (Text.hex f.2))),
    ("max-points", .float j.maxPoints)]

structure Points where
  score : Float
  maxPoints : Float
deriving DecidableEq

inductive GradingFailure where
  | unconfigured
  | failed (detail : String)
deriving DecidableEq, Repr

def GradingFailure.message : GradingFailure → String
  | unconfigured => "no grader is configured"
  | failed detail => "grader failed: " ++ detail

/-- A grader: what it answers to a job, and how many nanoseconds each job takes it, by which it
moves the clock. -/
structure Grader where
  grade : Job → Except GradingFailure Points
  nanos : Job → Int

namespace Grader

def unconfigured (nanos : Int) : Grader :=
  ⟨fun _ => .error .unconfigured, fun _ => nanos⟩

/-- A grader that gives every submission all points of its assignment. -/
def generous (nanos : Int) : Grader :=
  ⟨fun job => .ok ⟨job.maxPoints, job.maxPoints⟩, fun _ => nanos⟩

/-- A grader that gives every submission one score, out of the points of the assignment unless
others are given. -/
def constant (score : Float) (maxPoints : Option Float) (nanos : Int) : Grader :=
  ⟨fun job => .ok ⟨score, maxPoints.getD job.maxPoints⟩, fun _ => nanos⟩

def failing (detail : String) (nanos : Int) : Grader :=
  ⟨fun _ => .error (.failed detail), fun _ => nanos⟩

end Grader
end Coursework
