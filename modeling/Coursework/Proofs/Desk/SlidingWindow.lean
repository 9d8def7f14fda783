import Coursework.Proofs.Admission
import Coursework.Proofs.Desk.Sound

/-!
# The number of attempts within any window

Admission looks at one window, the one that ends when it looks.  What a limit promises is more:
however a window of the same length is laid, and whoever comes when, not more submissions than
allowed start in it.

This rests on the clock.  Each request reads it once, when it is judged, and that reading is the
start of the submission.  As long as the readings under one key do not go back (`Desk.readings`),
whatever is saved started last of all (`Desk.Onward`), so that a window it starts in holds nothing
that the window of admission does not hold as well (`Desk.Paced`).
-/

set_option autoImplicit false

namespace Coursework
namespace Endpoint

open Time

/-! ## Windows -/

/-- Whether a submission started at the instant `x` or within `nanos` nanoseconds after it, both
ends included. -/
def startsWithin (x nanos : Int) (r : Submission) : Bool :=
  decide (x ≤ r.grade.startTime.instant) && decide (r.grade.startTime.instant ≤ x + nanos)

theorem startsWithin_iff (x nanos : Int) (r : Submission) :
    startsWithin x nanos r = true ↔
      x ≤ r.grade.startTime.instant ∧ r.grade.startTime.instant ≤ x + nanos := by
  simp [startsWithin]

/-- The length of a window in nanoseconds, from its exact length in seconds. -/
def windowNanos (w : WindowLimit) : Int :=
  w.duration.exactTotal * nanosPerSecond

/-- Where a limit applies, whoever passes `judge` has seen less in the window before them than it
allows. -/
theorem countP_lt_of_judge {t : Ticket} {start : Moment} {rs : List Submission} {l : AttemptLimit}
    {w : WindowLimit} (h : judge t start (rs.map Submission.grade) = .ok ())
    (hl : t.assignment.limit = some l) (hw : l.window = some w) (hallowed : 0 < w.allowed)
    (hrole : t.role.isStaff = false) :
    ((rs.countP fun r => Admission.inWindow start w.duration.total r.grade.startTime : Nat) : Int) <
      w.allowed := by
  obtain ⟨-, hlimits⟩ := (Admission.evaluate_eq_ok_iff _).1 h
  have hwindow := (hlimits l hl).2 hrole w hw
  rw [Admission.checkWindow_eq_ok_iff hallowed, ← List.countP_eq_length_filter] at hwindow
  simp only [Ticket.attempt, List.countP_map] at hwindow
  exact hwindow

/-- **One window is enough.**  Windows that hold no more than allowed still do when a submission
joins that starts last and finds less in the window before it. -/
theorem countP_insertByStart_le {w : WindowLimit} (hw : w.duration.validate = .ok ())
    {rs : List Submission} {r : Submission} (hrepr : r.grade.startTime.Representable)
    (hlast : ∀ q ∈ rs, q.grade.startTime.instant ≤ r.grade.startTime.instant)
    (hless : ((rs.countP fun q =>
      Admission.inWindow r.grade.startTime w.duration.total q.grade.startTime : Nat) : Int) <
        w.allowed) {x : Int}
    (hold : ((rs.countP (startsWithin x (windowNanos w)) : Nat) : Int) ≤ w.allowed) :
    (((Store.insertByStart r rs).countP (startsWithin x (windowNanos w)) : Nat) : Int) ≤
      w.allowed := by
  rw [(Store.insertByStart_perm r rs).countP_eq, List.countP_cons]
  by_cases hr : startsWithin x (windowNanos w) r = true
  · rw [if_pos hr]
    have hcovered : rs.countP (startsWithin x (windowNanos w)) ≤
        rs.countP fun q =>
          Admission.inWindow r.grade.startTime w.duration.total q.grade.startTime := by
      refine List.countP_mono_left fun q hq hin => ?_
      have hqx := ((startsWithin_iff x (windowNanos w) q).1 hin).1
      have hrx := ((startsWithin_iff x (windowNanos w) r).1 hr).2
      refine Admission.inWindow_of_within hw hrepr ?_ (hlast q hq)
      rw [windowNanos] at hrx
      omega
    omega
  · rw [if_neg hr]
    exact hold

/-! ## Readings of the clock -/

namespace Stage

/-- When a submission was admitted and what it had seen of the history, until it is saved. -/
def admission? : Stage → Option (Moment × List Grade)
  | .admitted start history | .marked start _ history _ => some (start, history)
  | _ => none

theorem Goes.admission? {r : Nat} {t : Ticket} {s : Server} {stage : Stage} {m : Move}
    {after : Stage × Server} (hgoes : Goes r t s stage m after) {start : Moment}
    {history : List Grade} (h : after.1.admission? = some (start, history)) :
    stage.admission? = some (start, history) ∨
      stage = .informed history ∧ m = .proceed ∧ start = s.clock := by
  cases hgoes with
  | admitted _ =>
    cases h
    exact .inr ⟨rfl, rfl, rfl⟩
  | marked | stayed => exact .inl h
  | _ => cases h

/-- Who is admitted has seen the history as it is, and as it stays while the request has its
lock. -/
theorem Fits.history_eq {s : Server} {r : Nat} {t : Ticket} {stage : Stage} {start : Moment}
    {history : List Grade} (h : stage.Fits s r t)
    (hadmitted : stage.admission? = some (start, history)) :
    s.backend.store.history t.key = history := by
  cases stage with
  | admitted | marked =>
    cases hadmitted
    exact h.2.1
  | _ => cases hadmitted

end Stage

namespace Desk

/-- The clock as an event reads it to judge a request for a key.  Any other event reads no clock
that matters here. -/
def reading? (key : SubmissionKey) (d : Desk) : Event → Option Moment
  | .move r .proceed =>
    match d.visits.find? r with
    | some ⟨t, .informed _⟩ => if t.key = key then some d.server.clock else none
    | _ => none
  | _ => none

/-- All readings of the clock for a key (`reading?`), in order. -/
def readings (key : SubmissionKey) : Desk → List Event → List Moment
  | _, [] => []
  | d, e :: events => (d.reading? key e).toList ++ readings key (d.step e) events

/-- A request that is admitted after an event was so before it, or is judged in this event. -/
theorem admission?_step {d : Desk} {e : Event} {r : Nat} {v : Visit} {start : Moment}
    {history : List Grade} (hv : (d.step e).visits.find? r = some v)
    (hadmitted : v.stage.admission? = some (start, history)) :
    ∃ stage, d.visits.find? r = some ⟨v.ticket, stage⟩ ∧
      (stage.admission? = some (start, history) ∨
        stage = .informed history ∧ d.reading? v.ticket.key e = some start) := by
  obtain hold | ⟨-, harrived⟩ | ⟨⟨t, stage⟩, m, rfl, hu, rfl, hgoes⟩ := find?_step hv
  · exact ⟨v.stage, hold, .inl hadmitted⟩
  · rw [harrived] at hadmitted
    cases hadmitted
  · refine ⟨stage, hu, (hgoes.admission? hadmitted).imp_right ?_⟩
    rintro ⟨hinformed, rfl, rfl⟩
    obtain rfl : stage = .informed history := hinformed
    exact ⟨rfl, by simp [reading?, hu]⟩

/-- While somebody is admitted under a key, an event that leaves them admitted saves nothing under
it. -/
theorem Sound.submissionsOf_step_of_admission {d : Desk} (h : d.Sound) {e : Event} {r : Nat}
    {v : Visit} {start : Moment} {history : List Grade}
    (hv : (d.step e).visits.find? r = some v)
    (hadmitted : v.stage.admission? = some (start, history)) :
    (d.step e).submissionsOf v.ticket.key = d.submissionsOf v.ticket.key := by
  have hafter := ((h.step e).fits r v hv).history_eq hadmitted
  have hbefore : d.server.backend.store.history v.ticket.key = history := by
    obtain ⟨stage, hstage, hold | ⟨rfl, -⟩⟩ := admission?_step hv hadmitted
    · exact (h.fits r _ hstage).history_eq hold
    · exact (h.fits r _ hstage).2
  rcases h.submissionsOf_step e v.ticket.key with
    hsame | ⟨_, _, _, _, _, _, _, _, _, _, hsaved⟩
  · exact hsame
  · have hlength := congrArg List.length (hafter.trans hbefore.symm)
    have hlonger := congrArg List.length hsaved
    rw [(Store.insertByStart_perm _ _).length_eq, List.length_cons] at hlonger
    simp only [Store.history, List.length_map] at hlength
    exact absurd (hlonger.symm.trans hlength) (Nat.succ_ne_self _)

/-! ## When submissions start -/

/-- Whatever is saved under a key, or admitted under it and not saved yet (`admission?`), started at
a moment of a kind. -/
structure StartedAt (key : SubmissionKey) (P : Moment → Prop) (d : Desk) : Prop where
  saved : ∀ r ∈ d.submissionsOf key, P r.grade.startTime
  pending : ∀ r v start history, d.visits.find? r = some v → v.ticket.key = key →
    v.stage.admission? = some (start, history) → P start

theorem StartedAt.step {key : SubmissionKey} {P : Moment → Prop} {d : Desk} {e : Event}
    (h : d.StartedAt key P) (hsound : d.Sound)
    (hreading : ∀ start, d.reading? key e = some start → P start) : (d.step e).StartedAt key P where
  saved := by
    rcases hsound.submissionsOf_step e key with
      hsame | ⟨r, v, start, finish, history, points, hv, hkey, hstage, -, hsaved⟩
    · rw [hsame]
      exact h.saved
    · intro q hq
      rw [hsaved, (Store.insertByStart_perm _ _).mem_iff, List.mem_cons] at hq
      rcases hq with rfl | hq
      · exact h.pending r v start history hv hkey (by rw [hstage, Stage.admission?])
      · exact h.saved q hq
  pending := by
    intro r v start history hv hkey hadmitted
    obtain ⟨stage, hstage, hold | ⟨-, hnew⟩⟩ := admission?_step hv hadmitted
    · exact h.pending r _ start history hstage hkey hold
    · exact hreading start (hkey ▸ hnew)

theorem StartedAt.mono {key : SubmissionKey} {P Q : Moment → Prop} {d : Desk}
    (h : d.StartedAt key P) (hmono : ∀ t, P t → Q t) : d.StartedAt key Q where
  saved r hr := hmono _ (h.saved r hr)
  pending r v start history hv hkey hadmitted :=
    hmono _ (h.pending r v start history hv hkey hadmitted)

theorem StartedAt.run {key : SubmissionKey} {P : Moment → Prop} {d : Desk} {events : List Event}
    (h : d.StartedAt key P) (hsound : d.Sound) (hreadings : ∀ t ∈ d.readings key events, P t) :
    (d.run events).StartedAt key P := by
  induction events generalizing d with
  | nil => exact h
  | cons e events ih =>
    rw [readings, List.forall_mem_append] at hreadings
    exact ih (h.step hsound fun start hstart => hreadings.1 start (by simp [hstart]))
      (hsound.step e) hreadings.2

theorem startedAt_opened {s : Server} {key : SubmissionKey}
    (hnone : s.backend.store.submissionsOf key = []) (P : Moment → Prop) :
    (opened s).StartedAt key P where
  saved r hr := by
    rw [submissionsOf, opened, hnone] at hr
    cases hr
  pending r v _ _ hv := by simp [opened] at hv

/-- Under a key time goes on: nothing started after a reading that is to come, and whoever is
admitted and not saved yet started last of all. -/
structure Onward (key : SubmissionKey) (later : List Moment) (d : Desk) : Prop where
  sound : d.Sound
  started : d.StartedAt key fun t => ∀ u ∈ later, t.instant ≤ u.instant
  last : ∀ r v start history, d.visits.find? r = some v → v.ticket.key = key →
    v.stage.admission? = some (start, history) →
      ∀ q ∈ d.submissionsOf key, q.grade.startTime.instant ≤ start.instant

/-- Time goes on in an event if the reading that it takes, if any, is not after those that
follow. -/
theorem Onward.step {key : SubmissionKey} {later : List Moment} {d : Desk} {e : Event}
    (h : d.Onward key ((d.reading? key e).toList ++ later))
    (hreading : ∀ start, d.reading? key e = some start → ∀ u ∈ later, start.instant ≤ u.instant) :
    (d.step e).Onward key later where
  sound := h.sound.step e
  started := by
    have hlater := h.started.mono fun t ht u hu =>
      ht u (List.mem_append_right (d.reading? key e).toList hu)
    exact hlater.step h.sound hreading
  last := by
    intro r v start history hv hkey hadmitted q hq
    -- who is still admitted has the lock, so that this event has saved nothing under the key
    have hsame := h.sound.submissionsOf_step_of_admission hv hadmitted
    rw [hkey] at hsame
    rw [hsame] at hq
    obtain ⟨stage, hstage, hold | ⟨-, hnew⟩⟩ := admission?_step hv hadmitted
    · exact h.last r _ start history hstage hkey hold q hq
    · rw [hkey] at hnew
      refine h.started.saved q hq start (List.mem_append_left later ?_)
      rw [hnew]
      exact List.mem_cons_self

theorem onward_opened {s : Server} {key : SubmissionKey} (hlocks : s.locks = .empty)
    (hnone : s.backend.store.submissionsOf key = []) (later : List Moment) :
    (opened s).Onward key later where
  sound := sound_opened hlocks
  started := startedAt_opened hnone _
  last r v _ _ hv := by simp [opened] at hv

/-! ## The invariant -/

/-- A moment that is not before any submission under a key, and not after any reading to come. -/
structure Due (key : SubmissionKey) (later : List Moment) (d : Desk) (start : Moment) : Prop where
  representable : start.Representable
  last : ∀ r ∈ d.submissionsOf key, r.grade.startTime.instant ≤ start.instant
  first : ∀ u ∈ later, start.instant ≤ u.instant

/-- All that is there keeps to a window, in view of the readings for the key that are to come: no
window holds more than allowed, whoever is admitted and not saved yet is `Due`, and nothing started
too late for a reading. -/
structure Paced (key : SubmissionKey) (a : Assignment) (w : WindowLimit) (later : List Moment)
    (d : Desk) : Prop where
  sound : d.Sound
  tickets : d.TicketsAre fun t => t.key = key → t.assignment = a ∧ t.role.isStaff = false
  sparse : ∀ x, (((d.submissionsOf key).countP (startsWithin x (windowNanos w)) : Nat) : Int) ≤
    w.allowed
  saved : ∀ r ∈ d.submissionsOf key, ∀ u ∈ later, r.grade.startTime.instant ≤ u.instant
  pending : ∀ r v start history, d.visits.find? r = some v → v.ticket.key = key →
    v.stage.admission? = some (start, history) → d.Due key later start

theorem Paced.onward {key : SubmissionKey} {a : Assignment} {w : WindowLimit} {later : List Moment}
    {d : Desk} (h : d.Paced key a w later) : d.Onward key later where
  sound := h.sound
  started := ⟨h.saved, fun r v start history hv hkey hadmitted =>
    (h.pending r v start history hv hkey hadmitted).first⟩
  last r v start history hv hkey hadmitted := (h.pending r v start history hv hkey hadmitted).last

/-- An event keeps the pace if the reading that it takes, if any, can be represented and is not
after those that follow. -/
theorem Paced.step {key : SubmissionKey} {a : Assignment} {l : AttemptLimit} {w : WindowLimit}
    {later : List Moment} {d : Desk} {e : Event}
    (h : d.Paced key a w ((d.reading? key e).toList ++ later)) (hl : a.limit = some l)
    (hw : l.window = some w) (hallowed : 0 < w.allowed) (hproper : w.duration.validate = .ok ())
    (hticket : ∀ t, e = .arrive t → t.key = key → t.assignment = a ∧ t.role.isStaff = false)
    (hreading : ∀ start, d.reading? key e = some start →
      start.Representable ∧ ∀ u ∈ later, start.instant ≤ u.instant) :
    (d.step e).Paced key a w later := by
  have honward : (d.step e).Onward key later :=
    h.onward.step fun start hstart => (hreading start hstart).2
  refine
    { sound := honward.sound
      tickets := h.tickets.step hticket
      sparse := fun x => ?_
      saved := honward.started.saved
      pending := fun r v start history hv hkey hadmitted =>
        ⟨?_, honward.last r v start history hv hkey hadmitted,
          honward.started.pending r v start history hv hkey hadmitted⟩ }
  · rcases h.sound.submissionsOf_step e key with
      hsame | ⟨r, v, start, finish, history, points, hv, hkey, hstage, hjudge, hsaved⟩
    · rw [hsame]
      exact h.sparse x
    · obtain ⟨hassignment, hrole⟩ := h.tickets r v hv hkey
      obtain ⟨hrepr, hlast, -⟩ :=
        h.pending r v start history hv hkey (by rw [hstage, Stage.admission?])
      have hless := countP_lt_of_judge hjudge (hassignment ▸ hl) hw hallowed hrole
      rw [hsaved]
      exact countP_insertByStart_le (r := graded v.ticket start finish history points) hproper
        hrepr hlast hless (h.sparse x)
  · obtain ⟨stage, hstage, hold | ⟨-, hnew⟩⟩ := admission?_step hv hadmitted
    · exact (h.pending r _ start history hstage hkey hold).representable
    · exact (hreading start (hkey ▸ hnew)).1

theorem Paced.run {key : SubmissionKey} {a : Assignment} {l : AttemptLimit} {w : WindowLimit}
    {d : Desk} {events : List Event} (h : d.Paced key a w (d.readings key events))
    (hl : a.limit = some l) (hw : l.window = some w) (hallowed : 0 < w.allowed)
    (hproper : w.duration.validate = .ok ())
    (htickets : ∀ t, .arrive t ∈ events → t.key = key → t.assignment = a ∧ t.role.isStaff = false)
    (hclock : (d.readings key events).Pairwise fun t u => t.instant ≤ u.instant)
    (hrepr : ∀ t ∈ d.readings key events, t.Representable) :
    (d.run events).Paced key a w [] := by
  induction events generalizing d with
  | nil => exact h
  | cons e events ih =>
    rw [readings] at h hclock hrepr
    obtain ⟨-, hlater, hfirst⟩ := List.pairwise_append.1 hclock
    have hstep : (d.step e).Paced key a w ((d.step e).readings key events) := by
      refine h.step hl hw hallowed hproper (fun t ht => htickets t (ht ▸ List.mem_cons_self)) ?_
      intro start hstart
      have hmem : start ∈ (d.reading? key e).toList := by rw [hstart]; exact List.mem_cons_self
      exact ⟨hrepr start (List.mem_append_left _ hmem), hfirst start hmem⟩
    exact ih hstep (fun t ht => htickets t (List.mem_cons_of_mem _ ht)) hlater fun t ht =>
      hrepr t (List.mem_append_right _ ht)

/-- **The limit stands in every window.**  Let an assignment that the store takes allow so many
attempts within a length of time, and let nobody who submits under a key of it be staff.  If nobody
has the lock of anything yet and nothing is saved under the key, then in any run in which the clock,
as it is read under the lock, does not go back, no closed interval of that length has more
submissions start in it than allowed.  A clock only shows moments that can be represented
(`Moment.Representable`). -/
theorem starts_within_le_allowed {before after : Store} {s : Server} {key : SubmissionKey}
    {a : Assignment} {l : AttemptLimit} {w : WindowLimit}
    (haccepted : before.putAssignment a = .ok after) (hl : a.limit = some l)
    (hw : l.window = some w) (hlocks : s.locks = .empty)
    (hnone : s.backend.store.submissionsOf key = []) {events : List Event}
    (htickets : ∀ t, .arrive t ∈ events → t.key = key → t.assignment = a ∧ t.role.isStaff = false)
    (hclock : ((opened s).readings key events).Pairwise fun t u => t.instant ≤ u.instant)
    (hrepr : ∀ t ∈ (opened s).readings key events, t.Representable) (x : Int) :
    (((((opened s).run events).submissionsOf key).countP
      (startsWithin x (w.duration.exactTotal * nanosPerSecond)) : Nat) : Int) ≤ w.allowed := by
  have hproper := Assignment.limit_validate (Store.validate_of_putAssignment haccepted) hl
  obtain ⟨hallowed, hduration⟩ := (AttemptLimit.validate_eq_ok_iff l).1 hproper w hw
  have hempty : (opened s).submissionsOf key = [] := hnone
  have hstart : (opened s).Paced key a w ((opened s).readings key events) := by
    refine ⟨sound_opened hlocks, fun r v hv => by simp [opened] at hv, ?_, ?_,
      fun r v _ _ hv => by simp [opened] at hv⟩
    · intro y
      rw [hempty]
      exact Int.le_of_lt hallowed
    · rw [hempty]
      exact fun r hr => absurd hr List.not_mem_nil
  exact (hstart.run hl hw hallowed hduration htickets hclock hrepr).sparse x

def onceInTenSeconds : Assignment :=
  ⟨"hw1", "cs1", "", none, 10, some ⟨none, some ⟨1, ⟨0, 0, 0, 10⟩⟩⟩, none⟩

def oneCourse : Store :=
  { Store.empty with courses := Table.empty.insert "cs1" ⟨"cs1", ""⟩ }

/-- A request that comes at a time and goes through undisturbed, admitted or not. -/
def attemptAt (nanos : Int) (r : Nat) : List Event :=
  .meanwhile (serverAt nanos) :: .arrive (studentTicket onceInTenSeconds) ::
    [Move.proceed, .proceed, .proceed, .proceed, .receive (.ok ⟨10, 10⟩) 0, .proceed, .proceed,
      .proceed].map (.move r)

/-- Three attempts: the second comes within ten seconds of the first, the third one nanosecond later
than that. -/
def threeAttempts : List Event :=
  attemptAt 0 0 ++ attemptAt 5000000000 1 ++ attemptAt 10000000001 2

/-- Two of the attempts are saved, and only one of them lies in the ten seconds from the first. -/
theorem starts_within_le_allowed_three :
    let s := serverAt 0
    let key : SubmissionKey := ⟨"cs1", "hw1", "kim@school.edu"⟩
    (((((opened s).run threeAttempts).submissionsOf key).countP
        (startsWithin 0 (10 * nanosPerSecond)) : Nat) : Int) ≤ 1 ∧
      (((opened s).run threeAttempts).submissionsOf key).length = 2 := by
  refine ⟨?_, rfl⟩
  have hreadings : (opened (serverAt 0)).readings ⟨"cs1", "hw1", "kim@school.edu"⟩ threeAttempts =
      [⟨0, 0⟩, ⟨5000000000, 0⟩, ⟨10000000001, 0⟩] := rfl
  have haccepted : ∃ after, oneCourse.putAssignment onceInTenSeconds = .ok after := ⟨_, rfl⟩
  obtain ⟨after, hafter⟩ := haccepted
  refine starts_within_le_allowed (l := ⟨none, some ⟨1, ⟨0, 0, 0, 10⟩⟩⟩)
    (w := ⟨1, ⟨0, 0, 0, 10⟩⟩) hafter rfl rfl rfl rfl ?_ ?_ ?_ 0
  · intro t ht _
    simp only [threeAttempts, attemptAt, List.map_cons, List.map_nil, List.cons_append,
      List.nil_append, List.mem_cons, Event.arrive.injEq, reduceCtorEq, or_false, false_or,
      or_self, List.not_mem_nil] at ht
    rw [ht]
    exact ⟨rfl, rfl⟩
  · rw [hreadings]
    decide
  · rw [hreadings]
    decide

end Desk
end Endpoint
end Coursework
