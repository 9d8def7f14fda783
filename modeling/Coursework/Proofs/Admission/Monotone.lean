import Mathlib.Data.List.Perm.Subperm
import Coursework.Proofs.Admission

/-!
# Admission and the order of things

The earlier attempts come as a list, and admission counts them: in all, and inside the window.  So
their order does not matter, more of them never help, and fewer never hurt.  Neither does it hurt to
say that one knows the work is late, or to have a more privileged role, which can only skip the
window.

Where there is a window but no proper number of attempts in it, as in an assignment that was never
accepted, an empty window refuses nobody (`checkWindow_eq_ok_iff_or`); all of this holds there, too.
-/

set_option autoImplicit false

namespace Coursework

open Time

/-- A refusal with its time shown in UTC.  Refusals that become one in this way give the same
reason, and the same instant. -/
def Rejection.inUtc : Rejection → Rejection
  | windowMax allowed duration earliest => windowMax allowed duration earliest.utc
  | r => r

/-- An attempt that differs from another by what cannot hurt: it says that the work is late where
the other does, its role is at least as privileged, and its earlier attempts are among the
other's. -/
structure Attempt.Milder (b a : Attempt) : Prop where
  assignment : b.assignment = a.assignment
  now : b.now = a.now
  late : a.lateAcknowledged = true → b.lateAcknowledged = true
  role : b.role.satisfies a.role = true
  earlier : b.earlier.Subperm a.earlier

namespace Admission

/-! ## Order -/

theorem earliest?_perm {ts us : List Moment} (h : ts.Perm us) :
    (earliest? ts).map Moment.utc = (earliest? us).map Moment.utc := by
  rcases ht : earliest? ts with _ | t
  · rw [(earliest?_eq_none_iff ts).1 ht] at h
    rw [h.nil_eq.symm]
    rfl
  · rcases hu : earliest? us with _ | u
    · rw [(earliest?_eq_none_iff us).1 hu] at h
      rw [h.eq_nil] at ht
      cases ht
    · obtain ⟨htmem, htleast⟩ := earliest?_eq_some ht
      obtain ⟨humem, huleast⟩ := earliest?_eq_some hu
      have hsame : t.instant = u.instant :=
        Int.le_antisymm (htleast u (h.mem_iff.2 humem)) (huleast t (h.mem_iff.1 htmem))
      simp [Moment.utc, hsame]

theorem checkMax_perm (l : AttemptLimit) {ts us : List Moment} (h : ts.Perm us) :
    checkMax l ts = checkMax l us := by
  rw [checkMax, checkMax, h.length_eq]

/-- `checkWindow` looks at the instant of the first attempt alone, and at how many there are. -/
theorem checkWindow_inUtc (w : WindowLimit) (now : Moment) (ts : List Moment) :
    (checkWindow w now ts).mapError Rejection.inUtc =
      if w.allowed ≤ ((ts.filter (inWindow now w.duration.total)).length : Int) then
        match (earliest? (ts.filter (inWindow now w.duration.total))).map Moment.utc with
        | some t => .error (.windowMax w.allowed w.duration t)
        | none => .ok ()
      else .ok () := by
  rw [checkWindow]
  split
  · rcases earliest? (ts.filter (inWindow now w.duration.total)) with _ | t <;> rfl
  · rfl

theorem checkWindow_perm (w : WindowLimit) (now : Moment) {ts us : List Moment} (h : ts.Perm us) :
    (checkWindow w now ts).mapError Rejection.inUtc =
      (checkWindow w now us).mapError Rejection.inUtc := by
  have hinside := h.filter (inWindow now w.duration.total)
  rw [checkWindow_inUtc, checkWindow_inUtc, hinside.length_eq, earliest?_perm hinside]

/-- Whatever order the earlier attempts come in, the outcome of `evaluate` is the same. -/
theorem evaluate_perm (a : Attempt) {ts : List Moment} (h : ts.Perm a.earlier) :
    (evaluate { a with earlier := ts }).mapError Rejection.inUtc =
      (evaluate a).mapError Rejection.inUtc := by
  have hlate : checkLate { a with earlier := ts } = checkLate a := rfl
  rw [evaluate, evaluate, hlate]
  dsimp only
  split
  · rfl
  · split
    · rfl
    · rw [checkMax_perm _ h]
      split
      · rfl
      · split
        · rfl
        · split
          · rfl
          · exact checkWindow_perm _ _ h

/-! ## Less is better -/

/-- A window refuses nobody while it is empty, whatever number of attempts it allows. -/
theorem checkWindow_eq_ok_iff_or (w : WindowLimit) (now : Moment) (earlier : List Moment) :
    checkWindow w now earlier = .ok () ↔
      ((earlier.filter (inWindow now w.duration.total)).length : Int) < w.allowed ∨
        earlier.filter (inWindow now w.duration.total) = [] := by
  rw [checkWindow]
  split
  · next hfull =>
    rw [← earliest?_eq_none_iff]
    rcases earliest? (earlier.filter (inWindow now w.duration.total)) with _ | t
    · simp
    · simpa using hfull
  · next hfree => simpa using .inl (Int.not_le.1 hfree)

theorem checkLate_of_milder {a b : Attempt} (h : b.Milder a) (hok : checkLate a = .ok ()) :
    checkLate b = .ok () := by
  rw [checkLate] at hok ⊢
  rw [h.assignment, h.now]
  split
  · rfl
  · next p hp =>
    simp only [hp] at hok
    split at hok
    · cases hok
    · next hpass =>
      refine if_neg fun hfail => hpass ?_
      have hlate := h.late
      revert hfail hlate
      cases a.lateAcknowledged <;> cases b.lateAcknowledged <;> simp

theorem checkMax_of_subperm {l : AttemptLimit} {ts us : List Moment} (h : ts.Subperm us)
    (hok : checkMax l us = .ok ()) : checkMax l ts = .ok () := by
  rw [checkMax_eq_ok_iff] at hok ⊢
  intro m hm
  have hlength := h.length_le
  have hless := hok m hm
  omega

theorem checkWindow_of_subperm {w : WindowLimit} {now : Moment} {ts us : List Moment}
    (h : ts.Subperm us) (hok : checkWindow w now us = .ok ()) : checkWindow w now ts = .ok () := by
  have hinside := h.filter (inWindow now w.duration.total)
  rw [checkWindow_eq_ok_iff_or] at hok ⊢
  rcases hok with hless | hnone
  · have hlength := hinside.length_le
    left
    omega
  · rw [hnone, List.subperm_nil] at hinside
    exact .inr hinside

theorem isStaff_of_satisfies {q r : CourseRole} (h : q.satisfies r = true)
    (hq : q.isStaff = false) : r.isStaff = false := by
  simp only [CourseRole.isStaff, CourseRole.satisfies, decide_eq_true_eq,
    decide_eq_false_iff_not] at h hq ⊢
  omega

/-- What lets an attempt pass lets a `Milder` one pass. -/
theorem evaluate_of_milder {a b : Attempt} (h : b.Milder a) (hok : evaluate a = .ok ()) :
    evaluate b = .ok () := by
  obtain ⟨hlate, hlimits⟩ := (evaluate_eq_ok_iff a).1 hok
  refine (evaluate_eq_ok_iff b).2 ⟨checkLate_of_milder h hlate, fun l hl => ?_⟩
  rw [h.assignment] at hl
  obtain ⟨hmax, hwindow⟩ := hlimits l hl
  refine ⟨checkMax_of_subperm h.earlier hmax, fun hrole w hw => ?_⟩
  rw [h.now]
  exact checkWindow_of_subperm h.earlier (hwindow (isStaff_of_satisfies h.role hrole) w hw)

theorem exists_error_of_subperm {a : Attempt} {r : Rejection} (h : evaluate a = .error r)
    (ts : List Moment) (hmore : a.earlier.Subperm ts) :
    ∃ q, evaluate { a with earlier := ts } = .error q := by
  rcases hts : evaluate { a with earlier := ts } with q | ⟨⟩
  · exact ⟨q, rfl⟩
  · have hmilder : a.Milder { a with earlier := ts } :=
      ⟨rfl, rfl, id, by simp [CourseRole.satisfies], hmore⟩
    rw [evaluate_of_milder hmilder hts] at h
    cases h

/-- A reason that is given to staff comes before the window, and so is given to everybody. -/
theorem evaluate_of_staff {a : Attempt} {r : Rejection} (h : evaluate a = .error r)
    (hstaff : a.role.isStaff = true) (role : CourseRole) :
    evaluate { a with role := role } = .error r := by
  rw [evaluate_eq_error_iff] at h ⊢
  obtain hlate | ⟨hlate, l, hl, hmax | ⟨-, hrole, -⟩⟩ := h
  · exact .inl hlate
  · exact .inr ⟨hlate, l, hl, .inl hmax⟩
  · rw [hstaff] at hrole
    cases hrole

/-- **Admission counts and does not look at the order.**  Of any attempt it holds that

* earlier attempts in another order have the same outcome, with the same reason and the same instant
  in it;
* what is refused is refused with further earlier attempts as well;
* what `evaluate` passes it also passes when the attempt is `Milder`, which is when the work is said
  to be late, in a more privileged role, or there are only some of the earlier attempts, and all of
  this at once;
* a reason that is given to staff is given to every role. -/
theorem monotone_and_order_blind (a : Attempt) :
    (∀ ts : List Moment, ts.Perm a.earlier →
      (evaluate { a with earlier := ts }).mapError Rejection.inUtc =
        (evaluate a).mapError Rejection.inUtc) ∧
    (∀ r ts, evaluate a = .error r → a.earlier.Subperm ts →
      ∃ q, evaluate { a with earlier := ts } = .error q) ∧
    (∀ b : Attempt, b.Milder a → evaluate a = .ok () → evaluate b = .ok ()) ∧
    (∀ r role, a.role.isStaff = true → evaluate a = .error r →
      evaluate { a with role := role } = .error r) :=
  ⟨fun _ => evaluate_perm a, fun _ ts h => exists_error_of_subperm h ts,
    fun _ => evaluate_of_milder,
    fun _ role hstaff h => evaluate_of_staff h hstaff role⟩

end Admission
end Coursework
