import Coursework.Proofs.Admission.Retry
import Coursework.Proofs.Desk.SlidingWindow

/-!
# What a full window says about coming back

In a run whose clock does not go back, no window ever holds more submissions than allowed
(`Desk.Paced`).  So whenever the window that ends now is full, it holds exactly as many, and the
first one to leave it makes room: the moment that a refusal names is the right one.

The times in a history are readings of the clock (`Desk.StartedAt`), so that they are in UTC if the
clock is.
-/

set_option autoImplicit false

namespace Coursework
namespace Endpoint

open Time

namespace Desk

/-- At a desk that was just opened, there is as much room in a window as there can be. -/
theorem paced_opened {s : Server} {key : SubmissionKey} (hlocks : s.locks = .empty)
    (hnone : s.backend.store.submissionsOf key = []) (a : Assignment) {w : WindowLimit}
    (hallowed : 0 < w.allowed) (later : List Moment) : (opened s).Paced key a w later := by
  have hempty : (opened s).submissionsOf key = [] := hnone
  refine ⟨sound_opened hlocks, fun r v hv => by simp [opened] at hv, fun x => ?_, fun r hr => ?_,
    fun r v _ _ hv => by simp [opened] at hv⟩
  · rw [hempty]
    exact Int.le_of_lt hallowed
  · rw [hempty] at hr
    cases hr

/-- Where no window holds more submissions than allowed, their times are `Sparse`. -/
theorem Paced.sparse_startTimes {key : SubmissionKey} {a : Assignment} {w : WindowLimit}
    {later : List Moment} {d : Desk} (h : d.Paced key a w later) :
    Admission.Sparse (windowNanos w) w.allowed
      ((d.submissionsOf key).map fun r => r.grade.startTime) := by
  intro x
  rw [List.countP_map]
  refine Int.le_trans (Int.ofNat_le.2 (List.countP_mono_left fun r _ hr => ?_)) (h.sparse x)
  rw [startsWithin_iff]
  simpa using hr

/-- **The time to come back is the right one.**  Let nobody who submits under a key be staff, and
let the assignment be an accepted one that does not change.  If nobody has the lock of anything yet
and nothing is saved under the key, then in any run in which the clock is in UTC and, as it is read
under the lock, does not go back, the history is such that a refusal by the window, at any time from
the last submission on, is honest about when to come back (`Admission.Honest`). -/
theorem retry_is_honest {s : Server} {key : SubmissionKey} {a : Assignment}
    (ha : a.validate = .ok ()) (hlocks : s.locks = .empty)
    (hnone : s.backend.store.submissionsOf key = []) {events : List Event}
    (htickets : ∀ t, .arrive t ∈ events → t.key = key → t.assignment = a ∧ t.role.isStaff = false)
    (hclock : ((opened s).readings key events).Pairwise fun t u => t.instant ≤ u.instant)
    (hutc : ∀ t ∈ (opened s).readings key events, t.IsUtc) {t : Ticket} (ht : t.assignment = a)
    {now : Moment} (hnow : now.IsUtc)
    (hlast : ∀ r ∈ ((opened s).run events).submissionsOf key,
      r.grade.startTime.instant ≤ now.instant)
    {allowed : Int} {duration : Span} {earliest : Moment}
    (hrefused : judge t now ((((opened s).run events).submissionsOf key).map Submission.grade) =
      .error (.windowMax allowed duration earliest)) :
    Admission.Honest
      (t.attempt now ((((opened s).run events).submissionsOf key).map Submission.grade))
      allowed duration earliest := by
  subst ht
  obtain ⟨l, hl, -, hw, -⟩ := Admission.exists_of_windowMax hrefused
  obtain ⟨hallowed, hduration⟩ := Admission.window_proper ha hl hw
  have hrepr : ∀ u ∈ (opened s).readings key events, u.Representable :=
    fun u hu => (hutc u hu).representable
  have hpaced := (paced_opened hlocks hnone t.assignment hallowed _).run hl hw hallowed hduration
    htickets hclock hrepr
  have hstarted := (startedAt_opened hnone Moment.IsUtc).run (sound_opened hlocks) hutc
  have htimes : (t.attempt now
      ((((opened s).run events).submissionsOf key).map Submission.grade)).earlier =
      (((opened s).run events).submissionsOf key).map fun r => r.grade.startTime := by
    simp [Ticket.attempt]
  refine Admission.honest_of_sparse ha hnow ?_ ?_ hrefused ?_
  · rw [htimes, List.forall_mem_map]
    exact hstarted.saved
  · rw [htimes, List.forall_mem_map]
    exact hlast
  · rw [htimes]
    exact hpaced.sparse_startTimes

/-- After an attempt at the beginning of 1970, one is refused five seconds later, and still at the
tenth second; a nanosecond after that the window does not refuse. -/
theorem retry_is_honest_once :
    let history := (((opened (serverAt 0)).run (attemptAt 0 0)).submissionsOf
      ⟨"cs1", "hw1", "kim@school.edu"⟩).map Submission.grade
    let t := studentTicket onceInTenSeconds
    judge t ⟨5000000000, 0⟩ history = .error (.windowMax 1 ⟨0, 0, 0, 10⟩ ⟨0, 0⟩) ∧
      (∃ r, judge t ⟨10000000000, 0⟩ history = .error r) ∧
      ∀ first, judge t ⟨10000000001, 0⟩ history ≠ .error (.windowMax 1 ⟨0, 0, 0, 10⟩ first) := by
  have hreadings : (opened (serverAt 0)).readings ⟨"cs1", "hw1", "kim@school.edu"⟩ (attemptAt 0 0) =
      [⟨0, 0⟩] := rfl
  have hrefused : judge (studentTicket onceInTenSeconds) ⟨5000000000, 0⟩
      ((((opened (serverAt 0)).run (attemptAt 0 0)).submissionsOf
        ⟨"cs1", "hw1", "kim@school.edu"⟩).map Submission.grade) =
      .error (.windowMax 1 ⟨0, 0, 0, 10⟩ ⟨0, 0⟩) := rfl
  have htickets : ∀ t, .arrive t ∈ attemptAt 0 0 → t.key = ⟨"cs1", "hw1", "kim@school.edu"⟩ →
      t.assignment = onceInTenSeconds ∧ t.role.isStaff = false := by
    intro t ht _
    simp only [attemptAt, List.map_cons, List.map_nil, List.mem_cons, Event.arrive.injEq,
      reduceCtorEq, or_false, false_or, List.not_mem_nil] at ht
    rw [ht]
    exact ⟨rfl, rfl⟩
  have hhonest := retry_is_honest (a := onceInTenSeconds) rfl rfl rfl htickets
    (by rw [hreadings]; decide) (by rw [hreadings]; decide) rfl (by decide) (by decide) hrefused
  exact ⟨hrefused, hhonest.early ⟨10000000000, 0⟩ (by decide) (by decide) (by decide),
    hhonest.late ⟨10000000001, 0⟩ (by decide) (by decide) 1 ⟨0, 0, 0, 10⟩⟩

end Desk
end Endpoint
end Coursework
