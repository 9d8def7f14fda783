import Coursework.Proofs.Desk.Basic
import Coursework.Proofs.Store

/-!
# What holds at a desk at all times

While a request has the lock of its key, nobody else saves anything under the key, so that what the
request has read of the history stays true until it saves.  `Desk.Sound` says this of every request
by its stage, and every event keeps it (`Sound.step`).

What follows is the one statement that limits on attempts rest on: if an event changes the
submissions under a key at all, it puts one submission among them that admission allows in view of
exactly the submissions that are there (`Sound.submissionsOf_step`).
-/

set_option autoImplicit false

namespace Coursework
namespace Endpoint

open Time

/-! ## One request -/

namespace Stage

/-- What the stage of a request says of the server: which lock it waits for or has, and that what it
has read of the history is what the store has, as judged if it was admitted (`judge`). -/
def Fits (s : Server) (r : Nat) (t : Ticket) : Stage → Prop
  | .arrived | .queued => s.locks.Claims r t.key
  | .holding | .answered _ => s.locks.Holds r t.key
  | .informed history => s.locks.Holds r t.key ∧ s.backend.store.history t.key = history
  | .admitted start history | .marked start _ history _ =>
    s.locks.Holds r t.key ∧ s.backend.store.history t.key = history
      ∧ judge t start history = .ok ()
  | .leaving _ | .finished _ => True

/-- A stage fits as long as the claim of the request stays and, while it has the lock, the
history. -/
theorem Fits.of_eq {s u : Server} {r : Nat} {t : Ticket} {stage : Stage} (h : stage.Fits s r t)
    (hclaim : u.locks.claims.find? r = s.locks.claims.find? r)
    (hhistory : s.locks.Holds r t.key →
      u.backend.store.history t.key = s.backend.store.history t.key) : stage.Fits u r t := by
  cases stage with
  | arrived | queued => exact LockTable.Claims.of_find?_eq h hclaim
  | holding | answered _ => exact LockTable.Holds.of_find?_eq h hclaim
  | informed history => exact ⟨h.1.of_find?_eq hclaim, (hhistory h.1).trans h.2⟩
  | admitted start history | marked start finish history points =>
    exact ⟨h.1.of_find?_eq hclaim, (hhistory h.1).trans h.2.1, h.2.2⟩
  | leaving _ | finished _ => trivial

variable {r : Nat} {t : Ticket} {s : Server} {stage : Stage} {m : Move} {after : Stage × Server}

/-- A move works on the locks part by part (`LockTable.Part`). -/
theorem Goes.part (h : Goes r t s stage m after) :
    LockTable.Part s.locks r after.2.locks := by
  cases h with
  | queued => exact .enter
  | granted _ | passedOver _ => exact .poll
  | left | withdrawn _ | dropped _ => exact .leave
  | tidied => exact .prune t.key
  | _ => exact .nothing

theorem Goes.nextRequest (h : Goes r t s stage m after) : after.2.nextRequest = s.nextRequest := by
  cases h <;> rfl

/-- **The only way to write**: the move of a submission that was graded saves it, and no other move
touches the store. -/
theorem Goes.store (h : Goes r t s stage m after) :
    after.2.backend.store = s.backend.store ∨
      ∃ start finish history points, stage = .marked start finish history points ∧
        s.backend.store.save (graded t start finish history points) =
          .ok after.2.backend.store := by
  cases h with
  | saved hsaved => exact .inr ⟨_, _, _, _, rfl, Backend.save_eq_ok (saveGraded_eq_ok hsaved)⟩
  | _ => exact .inl rfl

/-- A move that changes the submissions under a key puts the graded one among them, which is of that
key. -/
theorem Goes.submissionsOf (h : Goes r t s stage m after) (key : SubmissionKey) :
    after.2.backend.store.submissionsOf key = s.backend.store.submissionsOf key ∨
      ∃ start finish history points, stage = .marked start finish history points ∧ t.key = key ∧
        after.2.backend.store.submissionsOf key =
          Store.insertByStart (graded t start finish history points)
            (s.backend.store.submissionsOf key) := by
  obtain hsame | ⟨start, finish, history, points, hstage, hsave⟩ := h.store
  · exact .inl (by rw [hsame])
  · have hkeys := Store.submissionsOf_save hsave key
    by_cases hkey : t.key = key
    · right
      refine ⟨start, finish, history, points, hstage, hkey, ?_⟩
      rw [hkeys]
      exact if_pos hkey.symm
    · left
      rw [hkeys]
      exact if_neg fun he => hkey he.symm

theorem Fits.goes (h : stage.Fits s r t) (hgoes : Goes r t s stage m after) :
    after.1.Fits after.2 r t := by
  cases hgoes with
  | queued =>
    exact LockTable.Claims.of_find?_eq h (congrArg (Table.find? · r) (s.locks.claims_enter r))
  | granted hheld => exact (LockTable.Claims.poll h).holds hheld
  | passedOver _ => exact LockTable.Claims.poll h
  | informed hhistory => exact ⟨h, Backend.history_eq_ok hhistory⟩
  | admitted hjudged => exact ⟨h.1, h.2, hjudged⟩
  | rejected _ | failed | unsaved _ | saved _ => exact h.1
  | uninformed _ | marked | stayed => exact h
  | left | tidied | withdrawn _ | dropped _ => trivial

end Stage

/-! ## All requests -/

namespace Desk

/-- What holds at a desk at all times.  The lock table is sound, every visit `Fits` the server, the
numbers of requests run below `nextRequest`, and no other request is known to the lock table. -/
structure Sound (d : Desk) : Prop where
  locks : d.server.locks.Sound
  visited : ∀ r v, d.visits.find? r = some v → r < d.server.nextRequest
  known : ∀ r, d.server.locks.isKnown r = true → r < d.server.nextRequest
  fits : ∀ r v, d.visits.find? r = some v → v.stage.Fits d.server r v.ticket

theorem sound_opened {s : Server} (h : s.locks = .empty) : (opened s).Sound where
  locks := by
    rw [opened, h]
    exact LockTable.sound_empty
  visited r v hv := by simp [opened] at hv
  known r hr := by
    rw [opened, h] at hr
    cases hr
  fits r v hv := by simp [opened] at hv

theorem Sound.arrive {d : Desk} (h : d.Sound) (t : Ticket) : (d.arrive t).Sound := by
  have hnew : d.server.locks.isKnown d.server.nextRequest = false := by
    cases hr : d.server.locks.isKnown d.server.nextRequest with
    | false => rfl
    | true => exact absurd (h.known _ hr) (Nat.lt_irrefl _)
  have hclaims := LockTable.find?_claims_refer d.server.locks hnew t.key
  refine ⟨h.locks.refer _ t.key, ?_, ?_, ?_⟩
  · intro r v hv
    rw [Desk.arrive, Table.find?_insert] at hv
    split at hv
    · next hr => exact hr ▸ Nat.lt_succ_self _
    · exact Nat.lt_succ_of_lt (h.visited r v hv)
  · intro r hr
    obtain ⟨c, hc⟩ := (LockTable.isKnown_iff _ r).1 hr
    rw [Desk.arrive, hclaims] at hc
    split at hc
    · next hr => exact hr ▸ Nat.lt_succ_self _
    · exact Nat.lt_succ_of_lt (h.known r ((LockTable.isKnown_iff _ r).2 ⟨c, hc⟩))
  · intro r v hv
    rw [Desk.arrive, Table.find?_insert] at hv
    split at hv
    · next hr =>
      cases hv
      rw [hr]
      exact LockTable.claims_refer hnew t.key
    · next hr =>
      refine (h.fits r v hv).of_eq ?_ fun _ => rfl
      rw [Desk.arrive, hclaims, if_neg hr]

/-- A move of one request leaves every other request at a stage that fits: if it saves under a key,
it has the lock of the key, and so no other request has. -/
theorem Sound.move {d : Desk} (h : d.Sound) (r : Nat) (m : Move) : (d.move r m).Sound := by
  cases hr : d.visits.find? r with
  | none =>
    rw [Desk.move, hr]
    exact h
  | some v =>
    rw [move_of_find? hr]
    have hgoes := v.stage.goes_move r v.ticket d.server m
    have hpart := hgoes.part
    have hnext := hgoes.nextRequest
    have hfits := h.fits r v hr
    refine ⟨hpart.sound h.locks, ?_, ?_, ?_⟩
    · intro q w hw
      rw [Table.find?_insert] at hw
      rw [hnext]
      split at hw
      · next hq => exact hq ▸ h.visited r v hr
      · exact h.visited q w hw
    · intro q hq
      rw [hnext]
      exact h.known q (hpart.isKnown hq)
    · intro q w hw
      rw [Table.find?_insert] at hw
      split at hw
      · next hq =>
        cases hw
        rw [hq]
        exact hfits.goes hgoes
      · next hq =>
        refine (h.fits q w hw).of_eq (hpart.find?_claims_of_ne hq) fun hholds => ?_
        rcases hgoes.submissionsOf w.ticket.key with
          hsame | ⟨start, finish, history, points, hstage, hkey, -⟩
        · exact congrArg (List.map Submission.grade) hsame
        · rw [hstage] at hfits
          exact absurd (h.locks.holder_unique hholds (hkey ▸ hfits.1)) hq

theorem Sound.meanwhile {d : Desk} (h : d.Sound) (s : Server) :
    Sound { d with server := withDeskOf s d.server } :=
  ⟨h.locks, h.visited, h.known, fun r v hv => (h.fits r v hv).of_eq rfl fun _ => rfl⟩

theorem Sound.step {d : Desk} (h : d.Sound) (e : Event) : (d.step e).Sound := by
  cases e with
  | arrive t => exact h.arrive t
  | move r m => exact h.move r m
  | meanwhile s => exact h.meanwhile s

/-- **The invariant**: a desk that was opened with no lock taken is `Sound` at all times. -/
theorem sound_run {s : Server} (h : s.locks = .empty) (events : List Event) :
    ((opened s).run events).Sound :=
  run_induction (fun _ e _ hd => hd.step e) (sound_opened h)

/-! ## The tickets that are there -/

def TicketsAre (P : Ticket → Prop) (d : Desk) : Prop :=
  ∀ r v, d.visits.find? r = some v → P v.ticket

theorem TicketsAre.step {P : Ticket → Prop} {d : Desk} (h : d.TicketsAre P) {e : Event}
    (he : ∀ t, e = .arrive t → P t) : (d.step e).TicketsAre P := by
  intro r v hv
  obtain hold | ⟨hcame, -⟩ | ⟨u, m, -, hu, hticket, -⟩ := find?_step hv
  · exact h r v hold
  · exact he v.ticket hcame
  · exact hticket ▸ h r u hu

/-! ## What is saved -/

/-- **Every submission that is saved was admitted in view of those before it.**  An event leaves the
submissions under a key as they are, or adds one that a request with that key had graded and that
was judged by the very history it is added to. -/
theorem Sound.submissionsOf_step {d : Desk} (h : d.Sound) (e : Event) (key : SubmissionKey) :
    (d.step e).submissionsOf key = d.submissionsOf key ∨
      ∃ r v start finish history points, d.visits.find? r = some v ∧ v.ticket.key = key ∧
        v.stage = .marked start finish history points ∧
        judge v.ticket start ((d.submissionsOf key).map Submission.grade) = .ok () ∧
        (d.step e).submissionsOf key =
          Store.insertByStart (graded v.ticket start finish history points)
            (d.submissionsOf key) := by
  cases e with
  | arrive t => exact .inl rfl
  | meanwhile s => exact .inl rfl
  | move r m =>
    rw [Desk.step]
    cases hr : d.visits.find? r with
    | none =>
      rw [Desk.move, hr]
      exact .inl rfl
    | some v =>
      rw [move_of_find? hr]
      rcases (v.stage.goes_move r v.ticket d.server m).submissionsOf key with
        hsame | ⟨start, finish, history, points, hstage, hkey, hsaved⟩
      · exact .inl hsame
      · right
        refine ⟨r, v, start, finish, history, points, hr, hkey, hstage, ?_, hsaved⟩
        have hfits := h.fits r v hr
        rw [hstage] at hfits
        obtain ⟨-, hhistory, hjudge⟩ := hfits
        rw [hkey] at hhistory
        rw [← hhistory] at hjudge
        exact hjudge

end Desk
end Endpoint
end Coursework
