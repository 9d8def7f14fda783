import Coursework.Course

/-!
# What an accepted policy promises

An assignment is put into the store only if its policies make sense.  For a window this means that
it allows something, and that no component of its length is negative.  The total of such a length is
exact as long as it fits into 64 bits, and the greatest number of seconds otherwise.
-/

set_option autoImplicit false

namespace Coursework

namespace Span

theorem validate_eq_ok_iff (d : Span) :
    d.validate = .ok () ↔
      0 ≤ d.days ∧ 0 ≤ d.hours ∧ 0 ≤ d.minutes ∧ 0 ≤ d.seconds ∧ 0 < d.total := by
  rw [validate]
  split
  · next h =>
    simp only [reduceCtorEq, false_iff]
    omega
  · next h =>
    split
    · next htotal =>
      simp only [reduceCtorEq, false_iff]
      omega
    · next htotal =>
      simp only [true_iff]
      omega

/-- Where nothing is negative, stopping after every step as `total` does comes to stopping once at
the end. -/
theorem total_eq_min {d : Span} (h : d.validate = .ok ()) :
    d.total = min d.exactTotal Text.int64Max := by
  obtain ⟨hdays, hhours, hminutes, hseconds, -⟩ := (validate_eq_ok_iff d).1 h
  simp only [total, exactTotal, Text.clamp64, Text.int64Max, Text.int64Min]
  omega

end Span

theorem AttemptLimit.validate_eq_ok_iff (l : AttemptLimit) :
    l.validate = .ok () ↔
      ∀ w, l.window = some w → 0 < w.allowed ∧ w.duration.validate = .ok () := by
  rw [validate]
  cases l.window with
  | none => simp
  | some w =>
    simp only [Option.some.injEq, forall_eq']
    split
    · next h =>
      simp only [reduceCtorEq, false_iff]
      omega
    · next h =>
      have hallowed : 0 < w.allowed := by omega
      simp [hallowed]

theorem Assignment.limit_validate {a : Assignment} (h : a.validate = .ok ()) {l : AttemptLimit}
    (hl : a.limit = some l) : l.validate = .ok () := by
  simp only [validate, hl, bind, Except.bind] at h
  split at h
  · cases h
  · split at h
    · cases h
    · split at h
      · cases h
      · assumption

end Coursework
