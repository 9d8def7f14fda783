import Coursework.Proofs.Transport.Envelope
import Coursework.Submission

/-!
# Assignments and submissions that are read back

Assignments, grades and submissions are kept as documents.  Each is read back as it was
(`records_read_back`), with every policy that it has and without those that it has not, and with its
times to the nanosecond and at their offsets.  A document can hold a record if its counts are in the
range of their fields, its doubles are read as they are written, and its times can be written.

One lemma for each record says that it is read out of the document that it is written as, given the
same of its parts.
-/

set_option autoImplicit false

namespace Coursework

open Json Time

/-! ## Policies -/

/-- A number that a signed field of 64 bits can hold, as `Text.int64?` reads one. -/
def InInt64 (n : Int) : Prop :=
  Text.int64Min ≤ n ∧ n ≤ Text.int64Max

instance (n : Int) : Decidable (InInt64 n) :=
  inferInstanceAs (Decidable (_ ∧ _))

namespace Span

/-- Every component of a span fits its field (`InInt64`), whatever its sign. -/
structure Fits (d : Span) : Prop where
  days : InInt64 d.days
  hours : InInt64 d.hours
  minutes : InInt64 d.minutes
  seconds : InInt64 d.seconds

theorem decode_toJson {d : Span} (h : d.Fits) : decode d.toJson.source = some d := by
  rw [toJson, decode, Decode.record?_of_keys (by decide) (by rfl)]
  simp only [Option.bind_eq_bind, Option.bind_some]
  rw [Decode.orElse_fieldsOf (v := .int d.days) rfl, Decode.orElse_fieldsOf (v := .int d.hours) rfl,
    Decode.orElse_fieldsOf (v := .int d.minutes) rfl,
    Decode.orElse_fieldsOf (v := .int d.seconds) rfl, Decode.int64_source h.days,
    Decode.int64_source h.hours, Decode.int64_source h.minutes, Decode.int64_source h.seconds]
  rfl

end Span

structure WindowLimit.Fits (w : WindowLimit) : Prop where
  allowed : InInt64 w.allowed
  duration : w.duration.Fits

theorem WindowLimit.decode_toJson {w : WindowLimit} (h : w.Fits) :
    decode w.toJson.source = some w := by
  rw [toJson, decode, Decode.record?_of_keys (by decide) (by rfl)]
  simp only [Option.bind_eq_bind, Option.bind_some]
  rw [Decode.required_fieldsOf (v := .int w.allowed) rfl,
    Decode.required_fieldsOf (v := w.duration.toJson) rfl, Decode.int64_source h.allowed,
    Span.decode_toJson h.duration]
  rfl

structure AttemptLimit.Fits (l : AttemptLimit) : Prop where
  max : ∀ m, l.max = some m → InInt64 m
  window : ∀ w, l.window = some w → w.Fits

theorem AttemptLimit.decode_toJson {l : AttemptLimit} (h : l.Fits) :
    decode l.toJson.source = some l := by
  have hmax := Decode.optional_source rfl fun m hm => Decode.int64_source (h.max m hm)
  have hwindow := Decode.optional_source rfl fun w hw => WindowLimit.decode_toJson (h.window w hw)
  rw [toJson, decode, Decode.record?_of_keys (by decide) (by rfl)]
  simp only [Option.bind_eq_bind, Option.bind_some]
  rw [Decode.orElse_fieldsOf (v := .optional .int l.max) rfl,
    Decode.orElse_fieldsOf (v := .optional WindowLimit.toJson l.window) rfl, hmax, hwindow]
  rfl

theorem LateKind.decode_toJson (k : LateKind) : decode k.toJson.source = some k := by
  cases k <;> decide

structure LatePolicy.Fits (p : LatePolicy) : Prop where
  penalty : ∀ x, p.penalty = some x → (Number.float x).Survives
  maxLateDays : ∀ n, p.maxLateDays = some n → n ≤ Text.uint32Max

theorem LatePolicy.decode_toJson {p : LatePolicy} (h : p.Fits) :
    decode p.toJson.source = some p := by
  have hpenalty := Decode.optional_source rfl fun x hx => Decode.float_source (h.penalty x hx)
  have hdays := Decode.optional_source rfl fun n hn =>
    Decode.natUpTo_source (h.maxLateDays n hn) (by decide)
  rw [toJson, decode, Decode.record?_of_keys (by decide) (by rfl)]
  simp only [Option.bind_eq_bind, Option.bind_some]
  rw [Decode.orElse_fieldsOf (v := p.kind.toJson) rfl,
    Decode.orElse_fieldsOf (v := .optional .float p.penalty) rfl,
    Decode.orElse_fieldsOf (v := .optional .nat p.maxLateDays) rfl, p.kind.decode_toJson, hpenalty,
    hdays]
  rfl

/-! ## Assignments -/

namespace Assignment

/-- A document can hold the assignment: its due date can be written as RFC 3339, its points are read
back (`Number.Survives`), and every number in its policies fits its field. -/
structure Fits (a : Assignment) : Prop where
  dueDate : ∀ t, a.dueDate = some t → t.Expressible
  maxPoints : (Number.float a.maxPoints).Survives
  limit : ∀ l, a.limit = some l → l.Fits
  latePolicy : ∀ p, a.latePolicy = some p → p.Fits

def document (a : Assignment) (dueDate : Value) : Value :=
  .object [("id", .string a.id), ("course-id", .string a.courseId), ("name", .string a.name),
    ("due-date", dueDate), ("max-points", .float a.maxPoints),
    ("submission-limit", .optional AttemptLimit.toJson a.limit),
    ("late-policy", .optional LatePolicy.toJson a.latePolicy)]

/-- The due date is written, if there is one, and is read as it was. -/
theorem exists_toJson? {a : Assignment} (h : a.Fits) :
    ∃ dueDate, a.toJson? = some (a.document dueDate) ∧
      Decode.optional Moment.decode dueDate.source = some a.dueDate := by
  rw [toJson?, writeJson]
  cases hdue : a.dueDate with
  | none => exact ⟨.null, rfl, rfl⟩
  | some t =>
    obtain ⟨text, htext⟩ := (h.dueDate t hdue).exists_writeRfc3339
    refine ⟨.string text, ?_, Decode.optional_of_eq_some rfl (Moment.decode_of_write htext)⟩
    simp only [htext]
    rfl

theorem decode_document {a : Assignment} (h : a.Fits) {dueDate : Value}
    (hdue : Decode.optional Moment.decode dueDate.source = some a.dueDate) :
    decode (a.document dueDate).source = some a := by
  have hlimit := Decode.optional_source rfl fun l hl => AttemptLimit.decode_toJson (h.limit l hl)
  have hlate := Decode.optional_source rfl fun p hp => LatePolicy.decode_toJson (h.latePolicy p hp)
  rw [document, decode, Decode.record?_of_keys (by decide) (by rfl)]
  simp only [Option.bind_eq_bind, Option.bind_some]
  rw [Decode.required_fieldsOf (v := .string a.id) rfl,
    Decode.orElse_fieldsOf (v := .string a.courseId) rfl,
    Decode.orElse_fieldsOf (v := .string a.name) rfl, Decode.orElse_fieldsOf (v := dueDate) rfl,
    Decode.orElse_fieldsOf (v := .float a.maxPoints) rfl,
    Decode.orElse_fieldsOf (v := .optional AttemptLimit.toJson a.limit) rfl,
    Decode.orElse_fieldsOf (v := .optional LatePolicy.toJson a.latePolicy) rfl, hdue,
    Decode.float_source h.maxPoints, hlimit, hlate]
  rfl

/-- **An assignment is read back as it was.**  Each field is found under its own name, and what a
document can hold (`Fits`) has one spelling there. -/
theorem decodeOctets?_octets {a : Assignment} (h : a.Fits) :
    ∃ v, a.toJson? = some v ∧ decodeOctets? decode v.octets = some a := by
  obtain ⟨dueDate, hv, hdue⟩ := exists_toJson? h
  have hread : Source.read (a.document dueDate).octets = some (a.document dueDate).source :=
    (a.document dueDate).ofString?_text
  refine ⟨_, hv, ?_⟩
  rw [decodeOctets?, hread, Option.bind_some, decode_document h hdue]

end Assignment

/-! ## Submissions -/

namespace Grade

/-- A document can hold the grade: its two times can be written as RFC 3339, and its points are read
back (`Number.Survives`). -/
structure Fits (g : Grade) : Prop where
  maxPoints : (Number.float g.maxPoints).Survives
  score : (Number.float g.score).Survives
  startTime : g.startTime.Expressible
  endTime : g.endTime.Expressible

def document (g : Grade) (start finish : String) : Value :=
  .object [("id", .string g.id), ("short-id", .string g.shortId),
    ("course-id", .string g.courseId), ("assignment-id", .string g.assignmentId),
    ("user", .string g.user), ("message", .string g.message), ("max-points", .float g.maxPoints),
    ("score", .float g.score), ("grading-start-time", .string start),
    ("grading-end-time", .string finish), ("late", .bool g.late)]

theorem exists_writeJson {g : Grade} (h : g.Fits) :
    ∃ start finish, g.startTime.writeRfc3339 = .ok start ∧ g.endTime.writeRfc3339 = .ok finish ∧
      g.writeJson = .ok (g.document start finish) := by
  obtain ⟨start, hstart⟩ := h.startTime.exists_writeRfc3339
  obtain ⟨finish, hfinish⟩ := h.endTime.exists_writeRfc3339
  refine ⟨start, finish, hstart, hfinish, ?_⟩
  rw [writeJson, hstart, hfinish]
  rfl

theorem decode_document {g : Grade} (h : g.Fits) {start finish : String}
    (hstart : g.startTime.writeRfc3339 = .ok start)
    (hfinish : g.endTime.writeRfc3339 = .ok finish) :
    decode (g.document start finish).source = some g := by
  rw [document, decode, Decode.record?_of_keys (by decide) (by rfl)]
  simp only [Option.bind_eq_bind, Option.bind_some]
  rw [Decode.required_fieldsOf (v := .string g.id) rfl,
    Decode.required_fieldsOf (v := .string g.shortId) rfl,
    Decode.required_fieldsOf (v := .string g.courseId) rfl,
    Decode.required_fieldsOf (v := .string g.assignmentId) rfl,
    Decode.required_fieldsOf (v := .string g.user) rfl,
    Decode.orElse_fieldsOf (v := .string g.message) rfl,
    Decode.required_fieldsOf (v := .float g.maxPoints) rfl,
    Decode.required_fieldsOf (v := .float g.score) rfl,
    Decode.required_fieldsOf (v := .string start) rfl,
    Decode.required_fieldsOf (v := .string finish) rfl,
    Decode.orElse_fieldsOf (v := .bool g.late) rfl, Decode.float_source h.maxPoints,
    Decode.float_source h.score, Moment.decode_of_write hstart, Moment.decode_of_write hfinish]
  rfl

/-- **A grade is read back as it was.** -/
theorem decodeOctets?_octets {g : Grade} (h : g.Fits) :
    ∃ v, g.toJson? = some v ∧ decodeOctets? decode v.octets = some g := by
  obtain ⟨start, finish, hstart, hfinish, hv⟩ := exists_writeJson h
  have hread : Source.read (g.document start finish).octets =
      some (g.document start finish).source := (g.document start finish).ofString?_text
  refine ⟨g.document start finish, by rw [toJson?, hv]; rfl, ?_⟩
  rw [decodeOctets?, hread, Option.bind_some, decode_document h hstart hfinish]

end Grade

namespace Submission

/-- **A submission is read back as it was.** -/
theorem decodeOctets?_octets {s : Submission} (h : s.grade.Fits) :
    ∃ v, s.toJson? = some v ∧ decodeOctets? decode v.octets = some s := by
  obtain ⟨start, finish, hstart, hfinish, hinfo⟩ := Grade.exists_writeJson h
  let info := s.grade.document start finish
  let files := Value.array (s.files.map .string)
  have hread : Source.read (Value.object [("info", info), ("files", files)]).octets =
      some (Value.object [("info", info), ("files", files)]).source := Value.ofString?_text _
  refine ⟨_, by rw [toJson?, writeJson, hinfo]; rfl, ?_⟩
  rw [decodeOctets?, hread, Option.bind_some, decode,
    Decode.record?_of_keys (by decide) (by rfl)]
  simp only [Option.bind_eq_bind, Option.bind_some]
  rw [Decode.required_fieldsOf (v := info) rfl, Decode.orElse_fieldsOf (v := files) rfl,
    Grade.decode_document h hstart hfinish, Decode.list_string_source]
  rfl

end Submission

/-- **Records survive their documents.**  Every assignment, every grade and every submission that a
document can hold (`Assignment.Fits`, `Grade.Fits`) is written and read back as the same one. -/
theorem records_read_back :
    (∀ a : Assignment, a.Fits →
      ∃ v, a.toJson? = some v ∧ decodeOctets? Assignment.decode v.octets = some a) ∧
    (∀ g : Grade, g.Fits →
      ∃ v, g.toJson? = some v ∧ decodeOctets? Grade.decode v.octets = some g) ∧
    ∀ s : Submission, s.grade.Fits →
      ∃ v, s.toJson? = some v ∧ decodeOctets? Submission.decode v.octets = some s :=
  ⟨fun _ => Assignment.decodeOctets?_octets, fun _ => Grade.decodeOctets?_octets,
    fun _ => Submission.decodeOctets?_octets⟩

/-- An assignment that is due at a fraction of a second, half an hour behind UTC, with late days and
a limit of two attempts in any half hour. -/
def dueInWindow : Assignment :=
  ⟨"hw0", "course101", "", some ⟨1697406265000000120, -1800⟩, 0.5,
    some ⟨none, some ⟨2, ⟨0, 0, 30, 0⟩⟩⟩, some ⟨.lateDays, none, some 3⟩⟩

theorem fits_dueInWindow : dueInWindow.Fits where
  dueDate t ht := by
    cases ht
    exact ⟨by decide, by decide, by decide⟩
  maxPoints := rfl
  limit l hl := by
    cases hl
    refine ⟨nofun, fun w hw => ?_⟩
    cases hw
    exact ⟨by decide, by decide, by decide, by decide, by decide⟩
  latePolicy p hp := by
    cases hp
    exact ⟨nofun, fun n hn => by cases hn; decide⟩

def lateOverOffsets : Submission :=
  ⟨⟨"course101::hw0::student@test.com::1", "1", "course101", "hw0", "student@test.com", "", 0.5,
    0.5, ⟨1500000000, 0⟩, ⟨2000000001, 20700⟩, true⟩, ["a.py", "b \"2\".py"]⟩

theorem fits_lateOverOffsets : lateOverOffsets.grade.Fits where
  maxPoints := rfl
  score := rfl
  startTime := ⟨by decide, by decide, by decide⟩
  endTime := ⟨by decide, by decide, by decide⟩

/-- Two such records, and the grade of the second by itself. -/
theorem records_read_back_small :
    (∃ v, dueInWindow.toJson? = some v ∧
      decodeOctets? Assignment.decode v.octets = some dueInWindow) ∧
    (∃ v, lateOverOffsets.grade.toJson? = some v ∧
      decodeOctets? Grade.decode v.octets = some lateOverOffsets.grade) ∧
    ∃ v, lateOverOffsets.toJson? = some v ∧
      decodeOctets? Submission.decode v.octets = some lateOverOffsets :=
  ⟨records_read_back.1 _ fits_dueInWindow, records_read_back.2.1 _ fits_lateOverOffsets,
    records_read_back.2.2 _ fits_lateOverOffsets⟩

end Coursework
