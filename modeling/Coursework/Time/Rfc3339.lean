import Coursework.Time.Moment

/-!
# Dates and times in text

`Moment.rfc3339?` writes the profile of ISO 8601 that documents use and `Moment.ofRfc3339?` reads
it.  Writing fails for a year outside 0 to 9999, an offset of a day or more, and an offset that is
not a whole number of minutes; `Moment.describe` falls back to a longer form for those, which is
never read.

Reading takes any one ASCII character between date and time, cuts a fraction after nine digits,
and takes second 60 for the last nanosecond of the minute when that is the end of a month in UTC.
-/

set_option autoImplicit false

namespace Coursework
namespace Time

/-- The component that keeps a moment from being written: a `year` that does not have four digits,
an offset of a day or more, or one with seconds in it. -/
inductive Unwritable where
  | year
  | offsetHour
  | offsetSecond
deriving DecidableEq, Repr

def Unwritable.name : Unwritable → String
  | .year => "year"
  | .offsetHour => "offset_hour"
  | .offsetSecond => "offset_second"

namespace Moment

/-! ## Writing -/

def fractionDigits (nanosecond : Nat) : List Char :=
  ((Text.padded 9 nanosecond).toList.reverse.dropWhile (· == '0')).reverse

def offsetText (offset : Int) : String :=
  (if offset < 0 then "-" else "+") ++ Text.padded 2 (offset.natAbs / 3600) ++ ":" ++
    Text.padded 2 (offset.natAbs / 60 % 60)

/-- The moment in RFC 3339, or the first component that cannot be written. -/
def writeRfc3339 (t : Moment) : Except Unwritable String :=
  let d := t.date
  if d.year < 0 ∨ 9999 < d.year then .error .year
  else if 23 < t.offset.natAbs / 3600 then .error .offsetHour
  else if t.offset.natAbs % 60 ≠ 0 then .error .offsetSecond
  else
    let fraction := fractionDigits t.nanosecond
    .ok (Text.padded 4 d.year.toNat ++ "-" ++ Text.padded 2 d.month ++ "-" ++ Text.padded 2 d.day
      ++ "T" ++ Text.padded 2 t.hour ++ ":" ++ Text.padded 2 t.minute ++ ":"
      ++ Text.padded 2 t.second
      ++ (if fraction.isEmpty then "" else "." ++ String.ofList fraction)
      ++ (if t.offset = 0 then "Z" else offsetText t.offset))

def rfc3339? (t : Moment) : Option String :=
  t.writeRfc3339.toOption

/-- The moment in a form that knows every year and every offset, and that nothing reads. -/
def longForm (t : Moment) : String :=
  let d := t.date
  let fraction := fractionDigits t.nanosecond
  (if d.year < 0 then "-" else "") ++ Text.padded 4 d.year.natAbs ++ "-" ++ Text.padded 2 d.month
    ++ "-" ++ Text.padded 2 d.day ++ " " ++ Text.padded 1 t.hour ++ ":" ++ Text.padded 2 t.minute
    ++ ":" ++ Text.padded 2 t.second ++ "."
    ++ (if fraction.isEmpty then "0" else String.ofList fraction)
    ++ " " ++ offsetText t.offset ++ ":" ++ Text.padded 2 (t.offset.natAbs % 60)

/-- The moment as messages name it: in RFC 3339, or in the `longForm` when that cannot write it. -/
def describe (t : Moment) : String :=
  match t.writeRfc3339 with
  | .ok s => s
  | .error _ => t.longForm

/-! ## Reading -/

/-- Read exactly `count` digits, behind a value already read. -/
def digits? (value : Nat) : Nat → List Char → Option (Nat × List Char)
  | 0, cs => some (value, cs)
  | _ + 1, [] => none
  | count + 1, c :: cs =>
    match Text.digitValue? c with
    | some d => digits? (10 * value + d) count cs
    | none => none

def char? (c : Char) : List Char → Option (List Char)
  | [] => none
  | d :: cs => if d = c then some cs else none

/-- Read the digits of a fraction; each counts `unit` nanoseconds, and a tenth of the one before, so
that those behind the ninth count nothing. -/
def fraction (nanos unit : Nat) : List Char → Nat × List Char
  | [] => (nanos, [])
  | c :: cs =>
    match Text.digitValue? c with
    | some d => fraction (nanos + d * unit) (unit / 10) cs
    | none => (nanos, c :: cs)

/-- Read an optional fraction; a point has at least one digit behind it. -/
def fraction? : List Char → Option (Nat × List Char)
  | '.' :: c :: cs =>
    if (Text.digitValue? c).isSome then some (fraction 0 100000000 (c :: cs)) else none
  | ['.'] => none
  | cs => some (0, cs)

/-- Read an offset that fills the rest of the text: a letter for UTC, or a sign with hours and
minutes. -/
def offset? : List Char → Option Int
  | ['Z'] => some 0
  | ['z'] => some 0
  | sign :: cs =>
    if sign = '+' ∨ sign = '-' then
      match digits? 0 2 cs with
      | none => none
      | some (hours, cs) =>
        match char? ':' cs with
        | none => none
        | some cs =>
          match digits? 0 2 cs with
          | some (minutes, []) =>
            if hours ≤ 23 ∧ minutes ≤ 59 then
              let seconds : Int := (hours * 3600 + minutes * 60 : Nat)
              some (if sign = '-' then -seconds else seconds)
            else none
          | _ => none
    else none
  | [] => none

/-- Whether a moment is the last nanosecond of a month in UTC, the only place for a leap second. -/
def endsMonth (t : Moment) : Bool :=
  let u := t.utc
  decide u.Representable && u.hour == 23 && u.minute == 59 && u.second == 59
    && u.nanosecond == 999999999 && u.date.day == daysInMonth u.date.year u.date.month

structure Parts where
  date : Date
  hour : Nat
  minute : Nat
  second : Nat
  nanosecond : Nat
  offset : Int

def parts? (cs : List Char) : Option Parts := do
  let (year, cs) ← digits? 0 4 cs
  let cs ← char? '-' cs
  let (month, cs) ← digits? 0 2 cs
  let cs ← char? '-' cs
  let (day, cs) ← digits? 0 2 cs
  let (separator, cs) ← match cs with
    | c :: cs => some (c, cs)
    | [] => none
  if separator.toNat < 128 then
    let (hour, cs) ← digits? 0 2 cs
    let cs ← char? ':' cs
    let (minute, cs) ← digits? 0 2 cs
    let cs ← char? ':' cs
    let (second, cs) ← digits? 0 2 cs
    let (nanosecond, cs) ← fraction? cs
    let offset ← offset? cs
    some ⟨⟨year, month, day⟩, hour, minute, second, nanosecond, offset⟩
  else none

/-- The moment that `Parts` name.  Second 60 is taken for the last nanosecond of its minute, but
only at the end of a month in UTC (`endsMonth`). -/
def ofParts? (p : Parts) : Option Moment :=
  if p.second = 60 then
    match ofLocal? p.date p.hour p.minute 59 999999999 p.offset with
    | some t => if t.endsMonth then some t else none
    | none => none
  else ofLocal? p.date p.hour p.minute p.second p.nanosecond p.offset

/-- The moment that a text in RFC 3339 names: what `rfc3339?` writes is read back, and some
spellings more. -/
def ofRfc3339? (s : String) : Option Moment :=
  (parts? s.toList).bind ofParts?

end Moment
end Time
end Coursework
