import Coursework.Proofs.Admission
import Coursework.Proofs.Desk.Sound

/-!
# The number of attempts in all

An assignment may limit the attempts of each user.  Admission looks at the history and only much
later, when the grader is done, is the submission saved; nevertheless no two requests that come at
the same time can both take the last attempt.
-/

set_option autoImplicit false

namespace Coursework
namespace Endpoint

open Time

theorem length_lt_of_judge {t : Ticket} {start : Moment} {history : List Grade} {l : AttemptLimit}
    {m : Int} (h : judge t start history = .ok ()) (hl : t.assignment.limit = some l)
    (hm : l.effectiveMax? = some m) : (history.length : Int) < m := by
  obtain ⟨-, hlimits⟩ := (Admission.evaluate_eq_ok_iff _).1 h
  have hlen := (Admission.checkMax_eq_ok_iff l _).1 (hlimits l hl).1 m hm
  simpa [Ticket.attempt] using hlen

theorem effectiveMax?_nonneg {l : AttemptLimit} {m : Int} (hm : l.effectiveMax? = some m) :
    0 ≤ m := by
  rw [AttemptLimit.effectiveMax?] at hm
  split at hm
  · split at hm
    · next h => exact Option.some.inj hm ▸ h
    · cases hm
  · cases hm

namespace Desk

/-- All that is there keeps to a limit: every request for a key is for one assignment, and there are
no more submissions under the key than the assignment allows. -/
structure Within (key : SubmissionKey) (a : Assignment) (m : Int) (d : Desk) : Prop where
  sound : d.Sound
  tickets : d.TicketsAre fun t => t.key = key → t.assignment = a
  length_le : ((d.submissionsOf key).length : Int) ≤ m

/-- Whoever saves saw fewer submissions than allowed, and saves one.  By `Sound` nobody else has
saved in between. -/
theorem Within.step {key : SubmissionKey} {a : Assignment} {l : AttemptLimit} {m : Int} {d : Desk}
    (h : d.Within key a m) (hl : a.limit = some l) (hm : l.effectiveMax? = some m) {e : Event}
    (he : ∀ t, e = .arrive t → t.key = key → t.assignment = a) : (d.step e).Within key a m where
  sound := h.sound.step e
  tickets := h.tickets.step he
  length_le := by
    rcases h.sound.submissionsOf_step e key with
      hsame | ⟨r, v, start, finish, history, points, hv, hkey, -, hjudge, hsaved⟩
    · rw [hsame]
      exact h.length_le
    · have hassignment : v.ticket.assignment = a := h.tickets r v hv hkey
      have hlt := length_lt_of_judge hjudge (hassignment ▸ hl) hm
      rw [List.length_map] at hlt
      rw [hsaved, (Store.insertByStart_perm _ _).length_eq, List.length_cons]
      omega

/-- **The limit on attempts stands, however many requests submit at once.**  Where an assignment
allows `m` attempts (`effectiveMax?`) and nobody has the lock of anything yet, the submissions that
are saved under a key of the assignment never become more than `m`: whatever requests come, for this
key or for others, in whatever order their steps are taken, whether the grader fails and whoever
gives up on the way. -/
theorem attempts_le_max {s : Server} {key : SubmissionKey} {a : Assignment} {l : AttemptLimit}
    {m : Int} (hlocks : s.locks = .empty) (hnone : s.backend.store.submissionsOf key = [])
    (hl : a.limit = some l) (hm : l.effectiveMax? = some m) {events : List Event}
    (htickets : ∀ t, .arrive t ∈ events → t.key = key → t.assignment = a) :
    ((((opened s).run events).submissionsOf key).length : Int) ≤ m := by
  have hstart : (opened s).Within key a m := by
    refine ⟨sound_opened hlocks, fun r v hv => by simp [opened] at hv, ?_⟩
    have hempty : (opened s).submissionsOf key = [] := hnone
    rw [hempty]
    exact effectiveMax?_nonneg hm
  have hrun : ((opened s).run events).Within key a m :=
    run_induction (fun d e he hd => hd.step hl hm fun t ht => htickets t (ht ▸ he)) hstart
  exact hrun.length_le

def onceOnly : Assignment :=
  ⟨"hw1", "cs1", "", none, 10, some ⟨some 1, none⟩, none⟩

/-- Two requests that come for the same attempt at the same time.  The first has the lock until it
has saved; the second looks in vain whether it is its turn, and is refused in the end. -/
def race : List Event :=
  [.arrive (studentTicket onceOnly), .arrive (studentTicket onceOnly), .move 0 .proceed,
    .move 1 .proceed, .move 1 .proceed, .move 0 .proceed, .move 0 .proceed, .move 0 .proceed,
    .move 1 .proceed, .move 0 (.receive (.ok ⟨10, 10⟩) 5), .move 0 .proceed, .move 0 .proceed,
    .move 1 .proceed, .move 0 .proceed, .move 1 .proceed, .move 1 .proceed, .move 1 .proceed,
    .move 1 .proceed]

/-- The bound is met: of the two, one is saved. -/
theorem attempts_le_max_race :
    let s := serverAt 0
    let key : SubmissionKey := ⟨"cs1", "hw1", "kim@school.edu"⟩
    ((((opened s).run race).submissionsOf key).length : Int) ≤ 1 ∧
      (((opened s).run race).submissionsOf key).length = 1 := by
  refine ⟨attempts_le_max (a := onceOnly) (l := ⟨some 1, none⟩) rfl rfl rfl rfl ?_, rfl⟩
  intro t ht _
  simp only [race, List.mem_cons, Event.arrive.injEq, reduceCtorEq, or_false, or_self,
    List.not_mem_nil] at ht
  rw [ht]
  rfl

end Desk
end Endpoint
end Coursework
