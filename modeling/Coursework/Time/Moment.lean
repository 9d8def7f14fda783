import Coursework.Time.Calendar

/-!
# Moments and spans

A `Moment` is an instant to the nanosecond together with the offset at which it is shown.  Order and
distance speak of the instants only.  The local date of a moment has to lie in the years -9999 to
9999; `Moment.plus?` and `Moment.minus?` fail when the result would not.
-/

set_option autoImplicit false

namespace Coursework
namespace Time

def nanosPerSecond : Int := 1000000000

def secondsPerDay : Int := 86400

/-- An instant, in nanoseconds since the beginning of 1970 in UTC, shown at an `offset` of so many
seconds by which local time is ahead.  Admission compares instants; the offset shows only in
texts. -/
structure Moment where
  instant : Int
  offset : Int
deriving DecidableEq, Repr

namespace Moment

/-- Nanoseconds from the beginning of 1970 to the local date and time, by which it is decided
whether a moment is `Representable`. -/
def localNanos (t : Moment) : Int :=
  t.instant + t.offset * nanosPerSecond

/-- The first local nanosecond that can be represented: the beginning of the year -9999. -/
def localMin : Int := -377705116800 * nanosPerSecond

def localMax : Int := 253402300800 * nanosPerSecond - 1

/-- Whether the local date lies in the years -9999 to 9999, from `localMin` to `localMax`. -/
def Representable (t : Moment) : Prop :=
  localMin ≤ t.localNanos ∧ t.localNanos ≤ localMax

instance (t : Moment) : Decidable t.Representable :=
  inferInstanceAs (Decidable (_ ∧ _))

def checked? (t : Moment) : Option Moment :=
  if t.Representable then some t else none

/-- The moment a number of seconds later, at the same offset, if it is `Representable`. -/
def plus? (t : Moment) (seconds : Int) : Option Moment :=
  checked? ⟨t.instant + seconds * nanosPerSecond, t.offset⟩

def minus? (t : Moment) (seconds : Int) : Option Moment :=
  checked? ⟨t.instant - seconds * nanosPerSecond, t.offset⟩

def plusNanos? (t : Moment) (nanos : Int) : Option Moment :=
  checked? ⟨t.instant + nanos, t.offset⟩

def offsetMax : Nat := 93599

/-- The moment a number of nanoseconds after a number of seconds since the beginning of 1970, shown
at an offset; none when it cannot be represented on the way. -/
def ofUnix? (seconds nanos offset : Int) : Option Moment := do
  let whole ← checked? ⟨seconds * nanosPerSecond, 0⟩
  let t ← whole.plusNanos? nanos
  if offset.natAbs ≤ offsetMax then checked? ⟨t.instant, offset⟩ else none

/-- Whole seconds since the beginning of 1970, rounded towards the past. -/
def unixSeconds (t : Moment) : Int :=
  t.instant / nanosPerSecond

/-- The same instant, shown in UTC: how the clock of a server shows it. -/
def utc (t : Moment) : Moment :=
  ⟨t.instant, 0⟩

def date (t : Moment) : Date :=
  Date.ofDayNumber (t.localNanos / (secondsPerDay * nanosPerSecond))

def nanosOfDay (t : Moment) : Nat :=
  (t.localNanos % (secondsPerDay * nanosPerSecond)).toNat

def hour (t : Moment) : Nat := t.nanosOfDay / 3600000000000

def minute (t : Moment) : Nat := t.nanosOfDay / 60000000000 % 60

def second (t : Moment) : Nat := t.nanosOfDay / 1000000000 % 60

def nanosecond (t : Moment) : Nat := t.nanosOfDay % 1000000000

/-- A moment from a local date, time of day and offset; none when the date (`Date.Valid`) or the
time does not exist. -/
def ofLocal? (date : Date) (hour minute second nanosecond : Nat) (offset : Int) : Option Moment :=
  if date.Valid ∧ hour ≤ 23 ∧ minute ≤ 59 ∧ second ≤ 59 ∧ nanosecond ≤ 999999999 then
    let seconds := date.dayNumber * secondsPerDay + (hour * 3600 + minute * 60 + second : Nat)
    some ⟨(seconds - offset) * nanosPerSecond + (nanosecond : Nat), offset⟩
  else none

end Moment
end Time
end Coursework
