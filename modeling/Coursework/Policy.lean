import Coursework.Role
import Coursework.Time.Rfc3339

/-!
# Policies of an assignment

An assignment may limit the attempts of a user, in total and inside a sliding window, and may say
how overdue work is treated.  The numbers come from documents written by hand, so each policy can be
asked whether it makes sense.

A `Span` is a length of time in four components.  Its total is taken in signed 64-bit seconds, and
stops at either end of their range.
-/

set_option autoImplicit false

namespace Coursework

open Json

/-! ## Spans -/

/-- A length of time in days, hours, minutes and seconds, each of them of either sign as far as
`decode` is concerned. -/
structure Span where
  days : Int
  hours : Int
  minutes : Int
  seconds : Int
deriving DecidableEq, Repr

namespace Span

/-- The total in seconds, kept within 64 bits after every product and every sum; so that it can
differ from `exactTotal`. -/
def total (d : Span) : Int :=
  let days := Text.clamp64 (d.days * 86400)
  let hours := Text.clamp64 (d.hours * 3600)
  let minutes := Text.clamp64 (d.minutes * 60)
  Text.clamp64 (Text.clamp64 (Text.clamp64 (days + hours) + minutes) + d.seconds)

/-- The total in seconds in unbounded integers, which says for which spans `total` is exact. -/
def exactTotal (d : Span) : Int :=
  86400 * d.days + 3600 * d.hours + 60 * d.minutes + d.seconds

/-- No component is negative, and the `total` is positive. -/
def validate (d : Span) : Except Invalid Unit :=
  if d.days < 0 ∨ d.hours < 0 ∨ d.minutes < 0 ∨ d.seconds < 0 then
    .error ⟨.submissionLimit, "duration components must not be negative"⟩
  else if d.total ≤ 0 then .error ⟨.submissionLimit, "duration must be positive"⟩
  else .ok ()

def componentText (n : Int) (unit : String) : List String :=
  if n = 0 then [] else [Text.decimal n ++ " " ++ unit ++ (if n = 1 then "" else "s")]

/-- The span in words, without the components that are zero: what a user reads who has to wait for a
window to open. -/
def describe (d : Span) : String :=
  match componentText d.days "day" ++ componentText d.hours "hour"
      ++ componentText d.minutes "minute" ++ componentText d.seconds "second" with
  | [] => "0 seconds"
  | parts => Text.join ", " parts

def decode : Decoder Span := fun s => do
  let f ← Decode.record? ["days", "hours", "minutes", "seconds"] s
  let days ← f.orElse "days" 0 Decode.int64
  let hours ← f.orElse "hours" 0 Decode.int64
  let minutes ← f.orElse "minutes" 0 Decode.int64
  let seconds ← f.orElse "seconds" 0 Decode.int64
  some ⟨days, hours, minutes, seconds⟩

def toJson (d : Span) : Value :=
  .object [("days", .int d.days), ("hours", .int d.hours), ("minutes", .int d.minutes),
    ("seconds", .int d.seconds)]

end Span

/-! ## Limits on attempts -/

/-- A limit on the attempts inside any window of one length: no more than `allowed` of them within
`duration`. -/
structure WindowLimit where
  allowed : Int
  duration : Span
deriving DecidableEq, Repr

/-- The limits on attempts of an assignment, one on all of them (`max`, where a negative number
means no limit) and one on those inside a sliding window.  Either may be missing. -/
structure AttemptLimit where
  max : Option Int
  window : Option WindowLimit
deriving DecidableEq, Repr

def WindowLimit.decode : Decoder WindowLimit := fun s => do
  let f ← Decode.record? ["allowed-attempts", "duration"] s
  let allowed ← f.required "allowed-attempts" Decode.int64
  let duration ← f.required "duration" Span.decode
  some ⟨allowed, duration⟩

def WindowLimit.toJson (w : WindowLimit) : Value :=
  .object [("allowed-attempts", .int w.allowed), ("duration", w.duration.toJson)]

namespace AttemptLimit

/-- The number of attempts in all, if `max` limits it: a negative one does not. -/
def effectiveMax? (l : AttemptLimit) : Option Int :=
  match l.max with
  | some m => if 0 ≤ m then some m else none
  | none => none

/-- A window allows at least one attempt, and has a length that `Span.validate` accepts. -/
def validate (l : AttemptLimit) : Except Invalid Unit :=
  match l.window with
  | none => .ok ()
  | some w =>
    if w.allowed < 1 then
      .error ⟨.submissionLimit,
        "window allowed-attempts must be at least 1, got " ++ Text.decimal w.allowed⟩
    else w.duration.validate

def decode : Decoder AttemptLimit := fun s => do
  let f ← Decode.record? ["max", "window"] s
  let max ← f.orElse "max" none (Decode.optional Decode.int64)
  let window ← f.orElse "window" none (Decode.optional WindowLimit.decode)
  some ⟨max, window⟩

def toJson (l : AttemptLimit) : Value :=
  .object [("max", .optional .int l.max), ("window", .optional WindowLimit.toJson l.window)]

end AttemptLimit

/-! ## Overdue work -/

/-- How overdue work is treated: like any other work, with points off or a share of them off for
each day, or against a stock of late days. -/
inductive LateKind where
  | none
  | constantPenalty
  | percentagePenalty
  | lateDays
deriving DecidableEq, Repr

namespace LateKind

def all : List LateKind :=
  [.none, constantPenalty, percentagePenalty, lateDays]

def name : LateKind → String
  | .none => "none"
  | .constantPenalty => "constant-penalty"
  | .percentagePenalty => "percentage-penalty"
  | .lateDays => "late-days"

def ofName? (s : String) : Option LateKind :=
  all.find? fun k => k.name == s

def decode : Decoder LateKind :=
  Decode.named ofName?

def toJson (k : LateKind) : Value :=
  .string k.name

end LateKind

/-- The policy for overdue work.  The `penalty` is in points or a share of them, by the `kind`;
`maxLateDays` is the stock of late days, of which admission takes no account. -/
structure LatePolicy where
  kind : LateKind
  penalty : Option Float
  maxLateDays : Option Nat
deriving DecidableEq

namespace LatePolicy

/-- Whether overdue work is taken only from a user who says that they know it is late.  Each `kind`
but `none` asks for that. -/
def needsAcknowledgment (p : LatePolicy) : Bool :=
  p.kind != .none

/-- A penalty is positive where the `kind` asks for one, and a share is at most the whole. -/
def validate (p : LatePolicy) : Except Invalid Unit :=
  match p.kind with
  | .none | .lateDays => .ok ()
  | .constantPenalty =>
    match p.penalty with
    | some x =>
      if 0.0 < x then .ok ()
      else .error ⟨.latePolicy, "constant-penalty requires a positive penalty"⟩
    | none => .error ⟨.latePolicy, "constant-penalty requires a positive penalty"⟩
  | .percentagePenalty =>
    match p.penalty with
    | some x =>
      if 0.0 < x ∧ x ≤ 1.0 then .ok ()
      else .error ⟨.latePolicy, "percentage-penalty requires a penalty in (0, 1]"⟩
    | none => .error ⟨.latePolicy, "percentage-penalty requires a penalty in (0, 1]"⟩

def decode : Decoder LatePolicy := fun s => do
  let f ← Decode.record? ["type", "penalty", "max-late-days"] s
  let kind ← f.orElse "type" .none LateKind.decode
  let penalty ← f.orElse "penalty" none (Decode.optional Decode.float)
  let days ← f.orElse "max-late-days" none (Decode.optional (Decode.natUpTo Text.uint32Max))
  some ⟨kind, penalty, days⟩

def toJson (p : LatePolicy) : Value :=
  .object [("type", p.kind.toJson), ("penalty", .optional .float p.penalty),
    ("max-late-days", .optional .nat p.maxLateDays)]

end LatePolicy
end Coursework
