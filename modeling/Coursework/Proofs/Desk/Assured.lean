import Mathlib.Algebra.Group.Int.Defs
import Mathlib.Algebra.Group.Nat.Defs
import Coursework.Proofs.Desk.FreshIds
import Coursework.Proofs.Time.Rfc3339

/-!
# Submissions that cannot break

A submission can be refused, and the grader can fail.  Nothing else goes wrong as long as the clock
stays within the years 0 to 9999 and no operation of the store is down: the history can be read,
what is graded is saved, and the answer can be written (`Desk.Assured`).

That what is graded is saved depends on its short id.  All short ids of a key are numbers, and the
greatest is ahead of the clock by no more than there are submissions, so that the numbers do not run
out (`Desk.Numbered`).
-/

set_option autoImplicit false

namespace Coursework

open Json Time

/-! ## Moments within four digits of a year -/

/-- A moment in UTC in the years 0 to 9999, which is one that RFC 3339 can write. -/
def Time.Moment.InYears (t : Moment) : Prop :=
  t.offset = 0 ∧ 0 ≤ t.date.year ∧ t.date.year ≤ 9999

instance (t : Moment) : Decidable t.InYears :=
  inferInstanceAs (Decidable (_ ∧ _ ∧ _))

namespace Time

theorem Date.Valid.dayNumber_bounds {d : Date} (h : d.Valid) (hfirst : 0 ≤ d.year)
    (hlast : d.year ≤ 9999) : -3000000 ≤ d.dayNumber ∧ d.dayNumber < 3000000 := by
  obtain ⟨hmonth, hmonth12, hday, hdays⟩ := h
  have hday31 : d.day ≤ 31 := Nat.le_trans hdays (daysInMonth_le _ _)
  simp only [Date.dayNumber]
  split <;> omega

namespace Moment

theorem InYears.unixSeconds_bounds {t : Moment} (h : t.InYears) :
    -2 ^ 40 ≤ t.unixSeconds ∧ t.unixSeconds < 2 ^ 40 := by
  obtain ⟨hoffset, hfirst, hlast⟩ := h
  have hbounds := (Date.valid_ofDayNumber (t.localNanos / (secondsPerDay * nanosPerSecond))
    ).dayNumber_bounds hfirst hlast
  rw [Date.dayNumber_ofDayNumber] at hbounds
  simp only [localNanos, hoffset, secondsPerDay, nanosPerSecond] at hbounds
  simp only [unixSeconds, nanosPerSecond]
  omega

theorem InYears.countable {t : Moment} (h : t.InYears) : t.Countable := by
  have hbounds := h.unixSeconds_bounds
  simp only [Countable, Text.int64Min, Text.int64Max]
  omega

theorem InYears.expressible {t : Moment} (h : t.InYears) : t.Expressible where
  year := h.2
  offset := by rw [h.1]; decide
  minutes := by rw [h.1]; rfl

end Moment
end Time

def Grade.InYears (g : Grade) : Prop :=
  g.startTime.InYears ∧ g.endTime.InYears

theorem Grade.InYears.exists_writeJson {g : Grade} (h : g.InYears) :
    ∃ v, g.writeJson = .ok v := by
  obtain ⟨start, hstart⟩ := h.1.expressible.exists_writeRfc3339
  obtain ⟨finish, hfinish⟩ := h.2.expressible.exists_writeRfc3339
  rw [Grade.writeJson, hstart, hfinish]
  exact ⟨_, rfl⟩

namespace Endpoint

/-! ## One submission -/

/-- An answer to a submission that can be given: graded at moments that are `InYears`, refused, or
not graded because the grader failed. -/
def Answer.Assured : Answer → Prop
  | .ok (.graded g) => g.InYears
  | .ok (.rejected _) => True
  | .error f => f.locator = .gradingFailed

/-- What the stage of a submission has in it was read off a clock in the years 0 to 9999, and leads
to an answer that can be given. -/
def Stage.Assured : Stage → Prop
  | .arrived | .queued | .holding | .informed _ => True
  | .admitted start _ => start.InYears
  | .marked start finish _ _ => start.InYears ∧ finish.InYears
  | .answered a => Answer.Assured a
  | .leaving a | .finished a => ∀ answer, a = some answer → Answer.Assured answer

section Goes

variable {r : Nat} {t : Ticket} {s : Server} {stage : Stage} {m : Move} {after : Stage × Server}

/-- No move of a submission takes the store down, or brings it up again. -/
theorem Stage.Goes.down (h : Stage.Goes r t s stage m after) :
    after.2.backend.down = s.backend.down := by
  cases h with
  | saved hsaved => exact (Backend.guarded_map_eq_ok (saveGraded_eq_ok hsaved)).2
  | _ => rfl

/-- A submission goes on to what is assured, if what it saves is taken. -/
theorem Stage.Assured.goes (h : stage.Assured) (hgoes : Stage.Goes r t s stage m after)
    (hup : s.backend.down = []) (hclock : s.clock.InYears) (hafter : after.2.clock.InYears)
    (hsave : ∀ start finish history points, stage = .marked start finish history points →
      hasNext start history = true ∧
        ∃ u, s.backend.store.save (graded t start finish history points) = .ok u) :
    after.1.Assured := by
  cases hgoes with
  | queued | granted _ | passedOver _ | informed _ | rejected _ => trivial
  | uninformed hhistory =>
    rw [Backend.history, Backend.guarded_of_up hup] at hhistory
    cases hhistory
  | admitted _ => exact hclock
  | failed => rfl
  | marked => exact ⟨h, hafter⟩
  | @unsaved start finish history points f hunsaved =>
    obtain ⟨hnext, u, hu⟩ := hsave start finish history points rfl
    have htaken : s.backend.save (graded t start finish history points) =
        .ok { s.backend with store := u } := by
      rw [Backend.save, Backend.guarded_of_up hup, hu]
      rfl
    cases hunsaved.symm.trans (saveGraded_of_hasNext hnext htaken)
  | saved _ => exact h
  | left => exact fun answer hanswer => Option.some.inj hanswer ▸ h
  | tidied | stayed => exact h
  | withdrawn _ | dropped _ => exact fun answer hanswer => nomatch hanswer

end Goes

namespace Desk

/-! ## Short ids are numbers -/

/-- Submissions whose short ids are numbers, ahead of the clock by no more than there are of them.
So they stay far below the last number that `hasNext` asks about. -/
def Numbered (rs : List Submission) : Prop :=
  ∀ q ∈ rs, ∃ n : Int, q.grade.shortId = Text.decimal n ∧ n < 2 ^ 40 + rs.length

/-- A list in memory is never so long that the numbers run out. -/
theorem Numbered.lt_max {rs : List Submission} (h : Numbered rs) (hlength : rs.length < 2 ^ 62) :
    ∀ q ∈ rs, ∀ m, Text.int64? q.grade.shortId = some m → m < Text.int64Max := by
  intro q hq m hm
  obtain ⟨n, hshort, hn⟩ := h q hq
  rw [hshort, Text.int64?, Text.integer?_decimal] at hm
  simp only at hm
  split at hm
  · obtain rfl := Option.some.inj hm
    simp only [Text.int64Max]
    omega
  · cases hm

theorem Numbered.graded {rs : List Submission} (h : Numbered rs) {t : Ticket}
    {start finish : Moment}
    {points : Points} (hstart : start.InYears) :
    Numbered (Store.insertByStart (graded t start finish (rs.map Submission.grade) points) rs) := by
  have hperm := Store.insertByStart_perm
    (Endpoint.graded t start finish (rs.map Submission.grade) points) rs
  intro q hq
  rw [hperm.length_eq, List.length_cons]
  rcases List.mem_cons.1 (hperm.mem_iff.1 hq) with rfl | hold
  · obtain ⟨n, hshort, -, -, horigin⟩ := nextShortId_spec start (rs.map Submission.grade)
    refine ⟨n, hshort, ?_⟩
    rcases horigin with rfl | hpred
    · have hbounds := hstart.unixSeconds_bounds
      omega
    · obtain ⟨g, hg, hparsed⟩ := mem_shortNumbers.1 hpred
      obtain ⟨p, hp, rfl⟩ := List.mem_map.1 hg
      obtain ⟨k, hk, hbound⟩ := h p hp
      rw [hk, Text.int64?, Text.integer?_decimal] at hparsed
      simp only at hparsed
      split at hparsed
      · have heq := Option.some.inj hparsed
        omega
      · cases hparsed
  · obtain ⟨n, hshort, hn⟩ := h q hold
    exact ⟨n, hshort, by omega⟩

/-! ## All submissions -/

/-- A desk at which nothing breaks: it is `Sound`, every stage is assured, and what is saved is
`Numbered` and was graded at moments that can be written. -/
structure Assured (d : Desk) : Prop where
  sound : d.Sound
  stages : ∀ r v, d.visits.find? r = some v → v.stage.Assured
  saved : ∀ key, ∀ q ∈ d.submissionsOf key, q.grade.InYears
  numbered : ∀ key, Numbered (d.submissionsOf key)

theorem assured_opened {s : Server} (hlocks : s.locks = .empty)
    (hnone : ∀ key, s.backend.store.submissionsOf key = []) : (opened s).Assured := by
  have hempty : ∀ key, (opened s).submissionsOf key = [] := hnone
  refine ⟨sound_opened hlocks, fun r v hv => by simp [opened] at hv, fun key q hq => ?_,
    fun key q hq => ?_⟩ <;>
  · rw [hempty] at hq
    cases hq

theorem Assured.admittedAt {d : Desk} (h : d.Assured) : d.AdmittedAt Moment.InYears := by
  intro r v start history hv hadmitted
  have hstage := h.stages r v hv
  cases hs : v.stage with
  | admitted start' history' =>
    rw [hs] at hadmitted hstage
    cases hadmitted
    exact hstage
  | marked start' finish history' points =>
    rw [hs] at hadmitted hstage
    cases hadmitted
    exact hstage.1
  | _ =>
    rw [hs] at hadmitted
    cases hadmitted

/-- What is about to be saved is saved, under a number that is left for it. -/
theorem Assured.exists_save {d : Desk} (h : d.Assured) {r : Nat} {t : Ticket}
    {start finish : Moment}
    {history : List Grade} {points : Points}
    (hv : d.visits.find? r = some ⟨t, .marked start finish history points⟩)
    (hlength : (d.submissionsOf t.key).length < 2 ^ 62) :
    hasNext start history = true ∧
      ∃ u, d.server.backend.store.save (Endpoint.graded t start finish history points) = .ok u := by
  have hclock : d.AdmittedAt Moment.Countable := fun r v start history hv hadmitted =>
    (h.admittedAt r v start history hv hadmitted).countable
  have hbelow := (h.numbered t.key).lt_max hlength
  refine ⟨hasNext_of_lt start fun g hg => ?_, (h.sound.fresh hclock hv hbelow).2⟩
  obtain ⟨-, hhistory, -⟩ := h.sound.fits r _ hv
  obtain ⟨q, hq, rfl⟩ := List.mem_map.1 (hhistory ▸ hg)
  exact hbelow q hq

/-- An event keeps what is saved in order, and adds what is in order. -/
theorem Assured.saved_step {d : Desk} (h : d.Assured) (e : Event) (key : SubmissionKey) :
    (∀ q ∈ (d.step e).submissionsOf key, q.grade.InYears) ∧
      Numbered ((d.step e).submissionsOf key) := by
  rcases h.sound.submissionsOf_step e key with
    hsame | ⟨r, v, start, finish, history, points, hv, hkey, hstage, -, hsaved⟩
  · rw [hsame]
    exact ⟨h.saved key, h.numbered key⟩
  · have hassured := h.stages r v hv
    have hfits := h.sound.fits r v hv
    rw [hstage] at hassured hfits
    obtain ⟨-, hhistory, -⟩ := hfits
    rw [hkey] at hhistory
    have hread : history = (d.submissionsOf key).map Submission.grade := hhistory.symm
    rw [hsaved, hread]
    refine ⟨fun q hq => ?_, (h.numbered key).graded hassured.1⟩
    rcases List.mem_cons.1 ((Store.insertByStart_perm _ _).mem_iff.1 hq) with rfl | hold
    · exact hassured
    · exact h.saved key q hold

/-- Every event keeps a desk at which nothing breaks, while the clock is in the years 0 to 9999,
nothing is down and no history is too long for memory. -/
theorem Assured.step {d : Desk} (h : d.Assured) (e : Event) (hup : d.server.backend.down = [])
    (hclock : d.server.clock.InYears) (hafter : (d.step e).server.clock.InYears)
    (hlength : ∀ key, (d.submissionsOf key).length < 2 ^ 62) : (d.step e).Assured := by
  refine ⟨h.sound.step e, fun r v hv => ?_, fun key => (h.saved_step e key).1,
    fun key => (h.saved_step e key).2⟩
  obtain hold | ⟨-, harrived⟩ | ⟨u, m, -, hu, hticket, hgoes⟩ := find?_step hv
  · exact h.stages r v hold
  · rw [harrived]
    trivial
  · refine (h.stages r u hu).goes hgoes hup hclock hafter ?_
    intro start finish history points hstage
    obtain ⟨t, stage⟩ := u
    obtain rfl : t = v.ticket := hticket
    obtain rfl : stage = .marked start finish history points := hstage
    exact h.exists_save hu (hlength _)

end Desk
end Endpoint
end Coursework
