import Coursework.Proofs.Admission

/-!
# The window that ends now, exactly

The window of a limit reaches back from now by a number of seconds.  Admission adds that number up
in 64 bits, stopping at the greatest there is, and goes back by it on a calendar that has a first
day; where there is no such day, everything is inside.  For a limit that was accepted, and clocks in
UTC, none of this shows: a time is inside exactly if it lies between now and the exact length before
now (`inWindow_iff_recent`).

So the window check is what it is meant to be (`window_rejects_iff`): it refuses when the recent
attempts are as many as allowed, and names the first of them.
-/

set_option autoImplicit false

namespace Coursework

open Time

/-- A moment that a clock in UTC can show: it is `Representable`, and its offset is zero. -/
structure Time.Moment.IsUtc (t : Moment) : Prop where
  offset : t.offset = 0
  representable : t.Representable

instance (t : Moment) : Decidable t.IsUtc :=
  decidable_of_iff (t.offset = 0 ∧ t.Representable)
    ⟨fun ⟨hoffset, hrepr⟩ => ⟨hoffset, hrepr⟩, fun h => ⟨h.offset, h.representable⟩⟩

theorem Time.Moment.IsUtc.bounds {t : Moment} (h : t.IsUtc) :
    Moment.localMin ≤ t.instant ∧ t.instant ≤ Moment.localMax := by
  have hbounds := h.representable
  simpa [Moment.Representable, Moment.localNanos, h.offset] using hbounds

namespace Admission

/-- A time is recent when it is not after now, and not before now by more than a span, whose length
`Span.exactTotal` is taken in unbounded integers. -/
def Recent (length : Span) (now t : Moment) : Prop :=
  now.instant - length.exactTotal * nanosPerSecond ≤ t.instant ∧ t.instant ≤ now.instant

instance (length : Span) (now t : Moment) : Decidable (Recent length now t) :=
  inferInstanceAs (Decidable (_ ∧ _))

def recent (length : Span) (now : Moment) (earlier : List Moment) : List Moment :=
  earlier.filter fun t => decide (Recent length now t)

theorem mem_recent {length : Span} {now t : Moment} {earlier : List Moment} :
    t ∈ recent length now earlier ↔ t ∈ earlier ∧ Recent length now t := by
  simp [recent]

/-- Where a window begins before all representable time, so that `minus?` finds no beginning,
everything is inside it by right. -/
theorem from_of_minus?_eq_none {now t : Moment} (hnow : now.IsUtc) (ht : t.IsUtc) {seconds : Int}
    (hpos : 0 < seconds) (h : now.minus? seconds = none) :
    now.instant - seconds * nanosPerSecond ≤ t.instant := by
  rw [Moment.minus?, Moment.checked?] at h
  split at h
  · cases h
  · next hstart =>
    have hlow := ht.bounds.1
    have hhigh := hnow.bounds.2
    simp only [Moment.Representable, Moment.localNanos, hnow.offset, nanosPerSecond] at hstart ⊢
    omega

/-- **The window has its exact length.**  The `total` of an accepted span is exact or greater than
all representable time is long, and so is what admission takes for it. -/
theorem inWindow_iff_recent {length : Span} (hlength : length.validate = .ok ()) {now t : Moment}
    (hnow : now.IsUtc) (ht : t.IsUtc) :
    inWindow now length.total t = true ↔ Recent length now t := by
  refine ⟨fun hin => ?_, fun hrecent =>
    inWindow_of_within hlength hnow.representable hrecent.1 hrecent.2⟩
  rw [inWindow, Bool.and_eq_true, decide_eq_true_eq] at hin
  obtain ⟨hfrom, hto⟩ := hin
  refine ⟨?_, hto⟩
  have hpos : 0 < length.total := ((Span.validate_eq_ok_iff length).1 hlength).2.2.2.2
  have hle : length.total ≤ length.exactTotal := by
    rw [Span.total_eq_min hlength]
    exact Int.min_le_left _ _
  have hstart : now.instant - length.total * nanosPerSecond ≤ t.instant := by
    rcases hminus : now.minus? length.total with _ | start
    · exact from_of_minus?_eq_none hnow ht hpos hminus
    · rw [hminus] at hfrom
      rw [Moment.minus?, Moment.checked?, Option.ite_none_right_eq_some] at hminus
      obtain ⟨-, hstart⟩ := hminus
      cases hstart
      simpa using hfrom
  rw [nanosPerSecond] at hstart ⊢
  omega

theorem filter_inWindow {length : Span} (hlength : length.validate = .ok ()) {now : Moment}
    (hnow : now.IsUtc) {earlier : List Moment} (hearlier : ∀ t ∈ earlier, t.IsUtc) :
    earlier.filter (inWindow now length.total) = recent length now earlier := by
  refine List.filter_congr fun t ht => ?_
  rw [Bool.eq_iff_iff, decide_eq_true_eq]
  exact inWindow_iff_recent hlength hnow (hearlier t ht)

theorem window_proper {a : Assignment} (ha : a.validate = .ok ()) {l : AttemptLimit}
    (hl : a.limit = some l) {w : WindowLimit} (hw : l.window = some w) :
    0 < w.allowed ∧ w.duration.validate = .ok () :=
  (AttemptLimit.validate_eq_ok_iff l).1 (Assignment.limit_validate ha hl) w hw

/-- What passes the checks before it comes down to `checkWindow`. -/
theorem evaluate_eq_checkWindow {a : Attempt} {l : AttemptLimit} {w : WindowLimit}
    (hlate : checkLate a = .ok ()) (hl : a.assignment.limit = some l)
    (hmax : checkMax l a.earlier = .ok ()) (hrole : a.role.isStaff = false)
    (hw : l.window = some w) : evaluate a = checkWindow w a.now a.earlier := by
  simp [evaluate, hlate, hl, hmax, hrole, hw]

/-- **The window check is exact.**  Let an accepted assignment have a window, and let the submitter
not be staff.  In UTC, an attempt that the checks for late work and for the attempts in all let pass
is refused if and only if the earlier attempts from `now` less the length of the window to `now`,
both ends included, are at least as many as allowed.  The reason is then the window
(`Rejection.windowMax`), and names the first of them (`recent`). -/
theorem window_rejects_iff {a : Attempt} {l : AttemptLimit} {w : WindowLimit}
    (ha : a.assignment.validate = .ok ()) (hl : a.assignment.limit = some l)
    (hw : l.window = some w) (hrole : a.role.isStaff = false) (hnow : a.now.IsUtc)
    (hearlier : ∀ t ∈ a.earlier, t.IsUtc) (hlate : checkLate a = .ok ())
    (hmax : checkMax l a.earlier = .ok ()) :
    ((∃ allowed duration earliest,
        evaluate a = .error (.windowMax allowed duration earliest)) ↔
      w.allowed ≤ ((recent w.duration a.now a.earlier).length : Int)) ∧
    ∀ r, evaluate a = .error r → ∃ earliest, r = .windowMax w.allowed w.duration earliest ∧
      earliest ∈ recent w.duration a.now a.earlier ∧
      ∀ t ∈ recent w.duration a.now a.earlier, earliest.instant ≤ t.instant := by
  obtain ⟨hallowed, hduration⟩ := window_proper ha hl hw
  have hinside := filter_inWindow hduration hnow hearlier
  have hcheck := evaluate_eq_checkWindow hlate hl hmax hrole hw
  refine ⟨⟨?_, fun hfull => ?_⟩, fun r hr => ?_⟩
  · rintro ⟨allowed, duration, earliest, hr⟩
    rw [hcheck, checkWindow_eq_error_iff, hinside] at hr
    exact hr.1
  · -- a window that is full is not empty, so that it has a first attempt
    rcases hfirst : earliest? (recent w.duration a.now a.earlier) with _ | earliest
    · rw [(earliest?_eq_none_iff _).1 hfirst, List.length_nil] at hfull
      omega
    · refine ⟨w.allowed, w.duration, earliest, ?_⟩
      rw [hcheck, checkWindow_eq_error_iff, hinside]
      exact ⟨hfull, earliest, hfirst, rfl⟩
  · rw [hcheck, checkWindow_eq_error_iff, hinside] at hr
    obtain ⟨-, earliest, hfirst, rfl⟩ := hr
    exact ⟨earliest, rfl, earliest?_eq_some hfirst⟩

/-- An assignment that may be attempted twice in ten seconds. -/
def twiceInTenSeconds : Assignment :=
  ⟨"hw1", "cs1", "", none, 10, some ⟨none, some ⟨2, ⟨0, 0, 0, 10⟩⟩⟩, none⟩

/-- An attempt with an earlier one at either end of the window, and one a nanosecond before it. -/
def attemptAtEnds : Attempt :=
  ⟨twiceInTenSeconds, .student, false, ⟨20000000000, 0⟩,
    [⟨20000000000, 0⟩, ⟨9999999999, 0⟩, ⟨10000000000, 0⟩]⟩

/-- Both ends of the window are inside it, and what is a nanosecond too early is not. -/
theorem window_rejects_iff_ends :
    attemptAtEnds.assignment.validate = .ok () ∧ attemptAtEnds.now.IsUtc ∧
      (∀ t ∈ attemptAtEnds.earlier, t.IsUtc) ∧
      evaluate attemptAtEnds = .error (.windowMax 2 ⟨0, 0, 0, 10⟩ ⟨10000000000, 0⟩) := by
  have hnow : attemptAtEnds.now.IsUtc := by decide
  have hearlier : ∀ t ∈ attemptAtEnds.earlier, t.IsUtc := by decide
  obtain ⟨hrejects, hreason⟩ := window_rejects_iff (a := attemptAtEnds)
    (l := ⟨none, some ⟨2, ⟨0, 0, 0, 10⟩⟩⟩) (w := ⟨2, ⟨0, 0, 0, 10⟩⟩) rfl rfl rfl rfl hnow hearlier
    rfl rfl
  obtain ⟨_, _, _, hr⟩ := hrejects.2 (by decide)
  obtain ⟨earliest, hwindow, hmem, hleast⟩ := hreason _ hr
  have hfirst : ∀ t ∈ recent ⟨0, 0, 0, 10⟩ attemptAtEnds.now attemptAtEnds.earlier,
      t.instant ≤ 10000000000 → t = ⟨10000000000, 0⟩ := by decide
  rw [hfirst earliest hmem (hleast ⟨10000000000, 0⟩ (by decide))] at hwindow
  exact ⟨rfl, hnow, hearlier, hwindow ▸ hr⟩

end Admission
end Coursework
