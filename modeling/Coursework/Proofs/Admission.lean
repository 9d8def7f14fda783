import Coursework.Admission
import Coursework.Proofs.Policy

/-!
# When admission lets a submission pass

`Admission.evaluate` asks three questions in order.  A submission passes exactly when it passes each
of them that applies, so the order matters only for the reason that is given.

The window that is checked ends now.  `inWindow_of_within` says that it has its full length even
where its beginning cannot be represented.
-/

set_option autoImplicit false

namespace Coursework
namespace Admission

open Time

theorem checkMax_eq_ok_iff (l : AttemptLimit) (earlier : List Moment) :
    checkMax l earlier = .ok () ↔ ∀ m, l.effectiveMax? = some m → (earlier.length : Int) < m := by
  rw [checkMax]
  cases hm : l.effectiveMax? with
  | none => simp
  | some m =>
    by_cases h : m ≤ (earlier.length : Int)
    · simp [h]
    · simpa [h] using Int.lt_of_not_ge h

theorem earliest?_eq_none_iff (ts : List Moment) : earliest? ts = none ↔ ts = [] := by
  cases ts with
  | nil => simp [earliest?]
  | cons t rest =>
    rw [earliest?]
    cases earliest? rest with
    | none => simp
    | some u =>
      simp only [reduceCtorEq, iff_false]
      split <;> simp

/-- The least of several moments is one of them, and none is before it. -/
theorem earliest?_eq_some {ts : List Moment} {t : Moment} (h : earliest? ts = some t) :
    t ∈ ts ∧ ∀ u ∈ ts, t.instant ≤ u.instant := by
  induction ts generalizing t with
  | nil => cases h
  | cons u rest ih =>
    rw [earliest?] at h
    cases hrest : earliest? rest with
    | none =>
      rw [hrest] at h
      cases h
      rw [(earliest?_eq_none_iff rest).1 hrest]
      simp
    | some v =>
      rw [hrest] at h
      obtain ⟨hmem, hleast⟩ := ih hrest
      dsimp only at h
      split at h
      · next hbefore =>
        cases h
        exact ⟨List.mem_cons_of_mem u hmem,
          List.forall_mem_cons.2 ⟨Int.le_of_lt hbefore, hleast⟩⟩
      · next hnot =>
        cases h
        exact ⟨List.mem_cons_self, List.forall_mem_cons.2
          ⟨Int.le_refl _, fun u hu => Int.le_trans (Int.not_lt.1 hnot) (hleast u hu)⟩⟩

theorem checkWindow_eq_ok_iff {w : WindowLimit} (hw : 0 < w.allowed) (now : Moment)
    (earlier : List Moment) :
    checkWindow w now earlier = .ok () ↔
      ((earlier.filter (inWindow now w.duration.total)).length : Int) < w.allowed := by
  rw [checkWindow]
  by_cases h : w.allowed ≤ ((earlier.filter (inWindow now w.duration.total)).length : Int)
  · simp only [if_pos h]
    cases hfirst : earliest? (earlier.filter (inWindow now w.duration.total)) with
    | none =>
      -- a full window cannot be empty
      rw [earliest?_eq_none_iff] at hfirst
      rw [hfirst, List.length_nil] at h
      exact absurd hw (Int.not_lt.2 h)
    | some t => simpa using h
  · simp only [if_neg h, true_iff]
    exact Int.lt_of_not_ge h

/-- A window (`inWindow`) has its full length.  If that is more seconds than 64 bits can hold, then
the window begins before all representable time, and nothing is too early for it. -/
theorem inWindow_of_within {d : Span} (hd : d.validate = .ok ()) {now t : Moment}
    (hnow : now.Representable) (hfrom : now.instant - d.exactTotal * nanosPerSecond ≤ t.instant)
    (hto : t.instant ≤ now.instant) : inWindow now d.total t = true := by
  rw [inWindow, Bool.and_eq_true, decide_eq_true_eq]
  refine ⟨?_, hto⟩
  rw [Span.total_eq_min hd]
  by_cases hfits : d.exactTotal ≤ Text.int64Max
  · rw [Int.min_eq_left hfits]
    cases hstart : now.minus? d.exactTotal with
    | none => rfl
    | some start =>
      rw [Moment.minus?, Moment.checked?] at hstart
      split at hstart
      · cases hstart
        simpa using hfrom
      · cases hstart
  · have hnone : now.minus? Text.int64Max = none := by
      obtain ⟨-, hmax⟩ := hnow
      rw [Moment.minus?, Moment.checked?, if_neg]
      rintro ⟨hmin, -⟩
      simp only [Moment.localNanos, Moment.localMin, Moment.localMax, nanosPerSecond,
        Text.int64Max] at hmin hmax
      omega
    rw [Int.min_eq_right (Int.le_of_lt (Int.not_le.1 hfits)), hnone]

/-! ## What each check refuses -/

theorem checkLate_eq_error {a : Attempt} {r : Rejection} (h : checkLate a = .error r) :
    r = .missingLateAcknowledgment := by
  rw [checkLate] at h
  split at h
  · cases h
  · split at h
    · exact (Except.error.inj h).symm
    · cases h

theorem checkMax_eq_error_iff (l : AttemptLimit) (earlier : List Moment) (r : Rejection) :
    checkMax l earlier = .error r ↔
      ∃ m, l.effectiveMax? = some m ∧ m ≤ (earlier.length : Int) ∧ r = .maxAttempts m := by
  rw [checkMax]
  cases l.effectiveMax? with
  | none => simp
  | some m =>
    by_cases h : m ≤ (earlier.length : Int)
    · simp [h, eq_comm]
    · simp [h]

theorem checkWindow_eq_error_iff (w : WindowLimit) (now : Moment) (earlier : List Moment)
    (r : Rejection) :
    checkWindow w now earlier = .error r ↔
      w.allowed ≤ ((earlier.filter (inWindow now w.duration.total)).length : Int) ∧
        ∃ t, earliest? (earlier.filter (inWindow now w.duration.total)) = some t ∧
          r = .windowMax w.allowed w.duration t := by
  rw [checkWindow]
  by_cases h : w.allowed ≤ ((earlier.filter (inWindow now w.duration.total)).length : Int)
  · simp only [h, true_and]
    cases earliest? (earlier.filter (inWindow now w.duration.total)) with
    | none => simp
    | some t => simp [eq_comm]
  · simp [h]

/-- A submission passes when it passes every check that applies to it: `checkLate` and `checkMax`
apply to all, and `checkWindow` to those that are not staff. -/
theorem evaluate_eq_ok_iff (a : Attempt) :
    evaluate a = .ok () ↔ checkLate a = .ok () ∧
      ∀ l, a.assignment.limit = some l → checkMax l a.earlier = .ok () ∧
        (a.role.isStaff = false → ∀ w, l.window = some w →
          checkWindow w a.now a.earlier = .ok ()) := by
  rw [evaluate]
  cases checkLate a with
  | error r => simp
  | ok _ =>
    cases a.assignment.limit with
    | none => simp
    | some l =>
      cases hmax : checkMax l a.earlier with
      | error r => simp [hmax]
      | ok _ =>
        cases hstaff : a.role.isStaff with
        | true => simp [hmax]
        | false => cases hwindow : l.window <;> simp [hmax, hwindow]

/-- A submission is refused by the first check that refuses it. -/
theorem evaluate_eq_error_iff (a : Attempt) (r : Rejection) :
    evaluate a = .error r ↔ checkLate a = .error r ∨
      checkLate a = .ok () ∧ ∃ l, a.assignment.limit = some l ∧
        (checkMax l a.earlier = .error r ∨
          checkMax l a.earlier = .ok () ∧ a.role.isStaff = false ∧
            ∃ w, l.window = some w ∧ checkWindow w a.now a.earlier = .error r) := by
  rw [evaluate]
  cases checkLate a with
  | error q => simp
  | ok _ =>
    cases a.assignment.limit with
    | none => simp
    | some l =>
      cases hmax : checkMax l a.earlier with
      | error q => simp [hmax]
      | ok _ =>
        cases hstaff : a.role.isStaff with
        | true => simp [hmax]
        | false => cases hwindow : l.window <;> simp [hmax, hwindow]

end Admission
end Coursework
