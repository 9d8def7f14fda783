import Coursework.Proofs.Hall.Defects

/-!
# No request finds the server at fault

On a server that starts with what a seed left and whose store is never down, no request to the six
endpoints is answered that the server is at fault, whatever requests there are and however their
steps come in between each other (`no_internal_error`).

A request that goes on changes the server beside submitting only, and may come to the desk
(`Phase.desk_proceed`).  So the desk of a hall goes through events of a desk, and what holds at a
desk at which nothing breaks (`Desk.Assured`) holds there.
-/

set_option autoImplicit false

namespace Coursework

open Json Time

theorem Reply.isDefect_ofAnswer {a : Endpoint.Answer} (h : Endpoint.Answer.Assured a) :
    (Reply.ofAnswer a).isDefect = false := by
  rcases a with f | answer
  · have hlocator : f.locator = .gradingFailed := h
    have hother : f ≠ .brokenDown := by
      rintro rfl
      cases hlocator
    rw [ofAnswer, if_neg hother, isDefect, Fault.isDefect, hlocator]
    rfl
  · refine Reply.isDefect_ofContent ?_
    cases answer with
    | rejected r => exact ⟨_, rfl⟩
    | graded g =>
      obtain ⟨v, hv⟩ := Grade.InYears.exists_writeJson h
      simp only [Endpoint.SubmitAnswer.writeJson, hv]
      exact ⟨_, rfl⟩

namespace Endpoint

/-! ## What a request does to the desk -/

namespace Desk

/-- A server that differs beside submitting only is one that things came to meanwhile. -/
theorem withServer_eq_step {d : Desk} {s : Server} (h : d.server.Beside s) :
    d.withServer s = d.step (.meanwhile s) := by
  obtain ⟨hlocks, hnumbering, hsubmissions, -⟩ := h
  rw [step, withDeskOf, ← hlocks, ← hnumbering, ← hsubmissions]
  rfl

theorem down_move (d : Desk) (r : Nat) (m : Move) :
    (d.move r m).server.backend.down = d.server.backend.down := by
  rw [move]
  split
  · rfl
  · exact (Stage.goes_move ..).down

end Desk

theorem beside_changePassword (m : Materialized PasswordChange) (s : Server) :
    s.Beside (changePassword m s).2 := by
  simp only [changePassword]
  split
  · exact ⟨rfl, rfl, rfl, rfl⟩
  · split
    · exact ⟨rfl, rfl, rfl, rfl⟩
    · next hput =>
      obtain ⟨hwrite, hdown⟩ := Backend.guarded_map_eq_ok hput
      obtain ⟨-, hstore⟩ := Store.putAccount_eq_ok hwrite
      exact ⟨rfl, rfl, by rw [hstore], hdown⟩

theorem Shipped.beside_handle (e : Shipped) (m : Materialized e.Body) (s : Server) :
    s.Beside (e.handle m s).2 := by
  cases e with
  | auth | roster | peek | history => exact .refl s
  | password => exact beside_changePassword m s
  | submit =>
    simp only [handle]
    split <;> exact .refl s

/-- A request that goes on changes the server `Beside` submitting only, and may come to the desk. -/
theorem Phase.desk_proceed (e : Shipped) (phase : Phase e.Body) (d : Desk) :
    ∃ s, d.server.Beside s ∧ ((phase.proceed e.kind e.handle d).2 = d.withServer s ∨
      ∃ t, (phase.proceed e.kind e.handle d).2 = (d.withServer s).arrive t) := by
  have hgoes := phase.goes_proceed e.kind e.handle d
  generalize phase.proceed e.kind e.handle d = after at hgoes
  cases hgoes with
  | misplaced | placed | waiting | ended => exact ⟨d.server, .refl _, .inl rfl⟩
  | turnedAway | admitted => exact ⟨_, .nonces _ _, .inl rfl⟩
  | incomplete hcomplete | completed hcomplete =>
    have hbeside := congrArg (fun outcome => d.server.Beside outcome.2) hcomplete
    exact ⟨_, hbeside.mp (Request.beside_complete _ _ _ _ _ _ _), .inl rfl⟩
  | handled hwork =>
    have hbeside := congrArg (fun outcome => d.server.Beside outcome.2) hwork
    exact ⟨_, (hbeside.mp (e.beside_handle _ _)).discard _, .inl rfl⟩
  | queued hwork =>
    have hbeside := congrArg (fun outcome => d.server.Beside outcome.2) hwork
    exact ⟨_, hbeside.mp (e.beside_handle _ _), .inr ⟨_, rfl⟩⟩
  | served => exact ⟨_, (Server.Beside.refl _).discard _, .inl rfl⟩

theorem Phase.down_proceed (e : Shipped) (phase : Phase e.Body) (d : Desk) :
    (phase.proceed e.kind e.handle d).2.server.backend.down = d.server.backend.down := by
  obtain ⟨s, hbeside, hdesk | ⟨t, hdesk⟩⟩ := phase.desk_proceed e d <;>
  · rw [hdesk]
    exact hbeside.down

theorem Phase.submissionsOf_proceed (e : Shipped) (phase : Phase e.Body) (d : Desk)
    (key : SubmissionKey) :
    (phase.proceed e.kind e.handle d).2.submissionsOf key = d.submissionsOf key := by
  obtain ⟨s, hbeside, hdesk | ⟨t, hdesk⟩⟩ := phase.desk_proceed e d <;>
  · rw [hdesk]
    exact congrArg (fun saved => (saved.find? key).getD []) hbeside.submissions

namespace Desk

theorem Assured.withServer {d : Desk} (h : d.Assured) {s : Server} (hbeside : d.server.Beside s)
    (hup : d.server.backend.down = []) (hclock : d.server.clock.InYears) (hafter : s.clock.InYears)
    (hlength : ∀ key, (d.submissionsOf key).length < 2 ^ 62) : (d.withServer s).Assured := by
  have hstep := h.step (.meanwhile s) hup hclock
  rw [← withServer_eq_step hbeside] at hstep
  exact hstep hafter hlength

theorem Assured.proceed {d : Desk} (h : d.Assured) (e : Shipped) (phase : Phase e.Body)
    (hup : d.server.backend.down = []) (hclock : d.server.clock.InYears)
    (hafter : (phase.proceed e.kind e.handle d).2.server.clock.InYears)
    (hlength : ∀ key, (d.submissionsOf key).length < 2 ^ 62) :
    (phase.proceed e.kind e.handle d).2.Assured := by
  have hsame := phase.submissionsOf_proceed e d
  obtain ⟨s, hbeside, hdesk | ⟨t, hdesk⟩⟩ := phase.desk_proceed e d <;> rw [hdesk] at hafter hsame ⊢
  · exact h.withServer hbeside hup hclock hafter hlength
  · refine (h.withServer hbeside hup hclock hafter hlength).step (.arrive t)
      (hbeside.down.trans hup) hafter hafter fun key => ?_
    exact (hsame key).symm ▸ hlength key

theorem Assured.answer {d : Desk} (h : d.Assured) {r : Nat} {a : Answer}
    (ha : d.answer? r = some a) :
    Answer.Assured a := by
  rw [answer?] at ha
  split at ha
  · next hv => exact h.stages r _ hv a ha
  · cases ha

end Desk

/-! ## All requests -/

namespace Phase

/-- A request at a phase that leads to no answer that blames the server: what is to be filled in is
there when it is ready, and no defect is in an answer. -/
def Safe (e : Shipped) : Phase e.Body → Prop
  | .ready m => e.Hydrated m.request
  | .answered reply => reply.isDefect = false
  | .arrived _ | .placed _ _ _ _ _ | .admitted _ _ _ _ _ | .visiting _ _ => True

theorem Safe.proceed {e : Shipped} {phase : Phase e.Body} (h : phase.Safe e) {seeded : Store}
    {d : Desk} {after : Phase e.Body × Desk} (hgoes : phase.Goes e.kind e.handle d after)
    (hknown : phase.Known seeded e.kind.schema) (hproper : seeded.Proper)
    (hstore : seeded.SamePrivileges d.server.backend.store) (hdesk : d.Assured)
    (hup : d.server.backend.down = []) : after.1.Safe e := by
  cases hgoes with
  | misplaced hplace => exact Request.isDefect_of_place hup e.validate_schema hplace
  | turnedAway hentry => exact Request.isDefect_of_admitSender hup hentry
  | incomplete hcomplete => exact e.isDefect_of_complete hknown.1 hstore hup hcomplete
  | completed hcomplete => exact e.hydrated_of_complete hcomplete
  | handled hwork => exact e.isDefect_of_handle hknown h hproper hup hdesk.saved hwork
  | served hanswer => exact Reply.isDefect_ofAnswer (hdesk.answer hanswer)
  | placed | admitted | queued | waiting => trivial
  | ended => exact h

end Phase

namespace Hall

/-- A hall in which nothing breaks: its desk is `Desk.Assured`, every request is `Safe`, and what
they know is as seeded (`Kept`). -/
structure Assured (seeded : Store) (h : Hall) : Prop where
  kept : h.Kept seeded
  desk : h.desk.Assured
  up : h.server.backend.down = []
  calls : ∀ n e phase, h.calls.find? n = some ⟨e, phase⟩ → phase.Safe e

theorem assured_opened {s : Server} (hlocks : s.locks = .empty) (hup : s.backend.down = [])
    (hnone : ∀ key, s.backend.store.submissionsOf key = []) :
    (opened s).Assured s.backend.store :=
  ⟨kept_opened, Desk.assured_opened hlocks hnone, hup, fun n e phase hc => by simp [opened] at hc⟩

/-- What the clock shows in the course of a run, before each event and at the end. -/
def clocks : Hall → List Event → List Moment
  | h, [] => [h.server.clock]
  | h, e :: events => h.server.clock :: clocks (h.step e) events

theorem server_clock_mem_clocks (h : Hall) (events : List Event) :
    h.server.clock ∈ h.clocks events := by
  cases events <;> exact List.mem_cons_self

theorem exists_desk_run (h : Hall) (event : Event) : ∃ es, (h.step event).desk = h.desk.run es := by
  rcases event with ⟨e, raw⟩ | n | ⟨r, m⟩ | u
  · exact ⟨[], rfl⟩
  · rcases hn : h.calls.find? n with _ | c
    · refine ⟨[], ?_⟩
      rw [step, proceed, hn]
      rfl
    · rw [step, proceed_of_find? hn]
      obtain ⟨u, hbeside, hdesk | ⟨t, hdesk⟩⟩ := c.phase.desk_proceed c.endpoint h.desk
      · exact ⟨[.meanwhile u], hdesk.trans (Desk.withServer_eq_step hbeside)⟩
      · refine ⟨[.meanwhile u, .arrive t], hdesk.trans ?_⟩
        rw [Desk.withServer_eq_step hbeside]
        rfl
  · exact ⟨[.move r m], rfl⟩
  · have hbeside : h.desk.server.Beside (withHallOf u h.server) := ⟨rfl, rfl, rfl, rfl⟩
    exact ⟨[.meanwhile (withHallOf u h.server)], Desk.withServer_eq_step hbeside⟩

/-- What every event of a desk keeps, a run of a hall keeps. -/
theorem desk_run_induction {Inv : Desk → Prop} (hstep : ∀ d e, Inv d → Inv (d.step e)) {h : Hall}
    (hinv : Inv h.desk) (events : List Event) : Inv (h.run events).desk := by
  have hkeep : ∀ (u : Hall) (event : Event), Inv u.desk → Inv (u.step event).desk := by
    intro u event hu
    obtain ⟨es, hdesk⟩ := u.exists_desk_run event
    rw [hdesk]
    exact Desk.run_induction (fun d e _ hd => hstep d e hd) hu
  exact run_induction hkeep hinv events

theorem submissionsOf_run_sublist (h : Hall) (events : List Event) (key : SubmissionKey) :
    (h.desk.submissionsOf key).Sublist ((h.run events).desk.submissionsOf key) := by
  have hstep : ∀ (d : Desk) (e : Endpoint.Event),
      (h.desk.submissionsOf key).Sublist (d.submissionsOf key) →
        (h.desk.submissionsOf key).Sublist ((d.step e).submissionsOf key) :=
    fun d e hd => hd.trans (Desk.submissionsOf_step_sublist d e key)
  exact desk_run_induction hstep (.refl _) events

theorem down_step (h : Hall) (event : Event) :
    (h.step event).server.backend.down = h.server.backend.down := by
  cases event with
  | arrive e raw | meanwhile s => rfl
  | move r m => exact Desk.down_move h.desk r m
  | proceed n =>
    rw [step]
    cases hn : h.calls.find? n with
    | none => rw [proceed, hn]
    | some c =>
      rw [proceed_of_find? hn]
      exact c.phase.down_proceed c.endpoint h.desk

theorem down_run (h : Hall) (events : List Event) :
    (h.run events).server.backend.down = h.server.backend.down := by
  induction events generalizing h with
  | nil => rfl
  | cons e events ih => exact (ih (h.step e)).trans (h.down_step e)

/-- Every event keeps a hall in which nothing breaks, while the clock is in the years 0 to 9999 and
no history is too long for memory. -/
theorem Assured.step {seeded : Store} {h : Hall} (hassured : h.Assured seeded)
    (hproper : seeded.Proper) (event : Event) (hclock : h.server.clock.InYears)
    (hafter : (h.step event).server.clock.InYears)
    (hlength : ∀ key, (h.desk.submissionsOf key).length < 2 ^ 62) :
    (h.step event).Assured seeded := by
  have hup : h.desk.server.backend.down = [] := hassured.up
  have hdesk : (h.step event).desk.Assured := by
    cases event with
    | arrive e raw => exact hassured.desk
    | meanwhile s =>
      have hbeside : h.server.Beside (withHallOf s h.server) := ⟨rfl, rfl, rfl, rfl⟩
      exact hassured.desk.withServer hbeside hup hclock hafter hlength
    | move r m => exact hassured.desk.step (.move r m) hup hclock hafter hlength
    | proceed n =>
      rw [Hall.step] at hafter ⊢
      cases hn : h.calls.find? n with
      | none =>
        rw [Hall.proceed, hn]
        exact hassured.desk
      | some c =>
        rw [proceed_of_find? hn] at hafter ⊢
        exact hassured.desk.proceed c.endpoint c.phase hup hclock hafter hlength
  refine ⟨hassured.kept.step hproper.toKeyed event, hdesk, (h.down_step event).trans hassured.up,
    fun n e phase hc => ?_⟩
  rcases find?_step hc with hold | ⟨raw, rfl⟩ | ⟨before, d, -, hbefore, hgoes⟩
  · exact hassured.calls n e phase hold
  · trivial
  · exact (hassured.calls n e before hbefore).proceed hgoes (hassured.kept.calls n _ hbefore)
      hproper hassured.kept.store hassured.desk hup

/-- A run keeps a hall in which nothing breaks.  Histories only grow, so that it is enough that they
fit at the end. -/
theorem Assured.run {seeded : Store} {h : Hall} (hassured : h.Assured seeded)
    (hproper : seeded.Proper) {events : List Event} (hclock : ∀ t ∈ h.clocks events, t.InYears)
    (hlength : ∀ key, ((h.run events).desk.submissionsOf key).length < 2 ^ 62) :
    (h.run events).Assured seeded := by
  induction events generalizing h with
  | nil => exact hassured
  | cons e events ih =>
    have hlater : ∀ t ∈ (h.step e).clocks events, t.InYears :=
      fun t ht => hclock t (List.mem_cons_of_mem _ ht)
    have hshort : ∀ key, (h.desk.submissionsOf key).length < 2 ^ 62 := fun key =>
      Nat.lt_of_le_of_lt (submissionsOf_run_sublist h (e :: events) key).length_le (hlength key)
    exact ih (hassured.step hproper e (hclock _ List.mem_cons_self)
      (hlater _ (server_clock_mem_clocks _ _)) hshort) hlater hlength

/-- **No request finds the server at fault.**  Let a server start with what a seed leaves in an
empty store, with no lock taken and no operation of the store down.  Then, whatever requests come to
the six endpoints, whatever they carry, however their steps come in between each other and whatever
the grader answers, none of them is answered with an internal error, a schema that makes no sense or
a roster that cannot be had, and no handler breaks down (`Reply.isDefect`), as long as the clock
stays within the years 0 to 9999.  A history is a list in memory, which has less than `2 ^ 62`
entries; if there could be more, the numbers of submissions would run out. -/
theorem no_internal_error (seed : Seed) (entropy : Entropy) {s : Server}
    (hbackend : s.backend = ⟨(seed.apply .empty entropy).store, []⟩) (hlocks : s.locks = .empty)
    {events : List Event} (hclock : ∀ t ∈ (opened s).clocks events, t.InYears)
    (hmemory : ∀ key, (((opened s).run events).store.submissionsOf key).length < 2 ^ 62) {n : Nat}
    {e : Shipped} {reply : Reply}
    (hanswered : ((opened s).run events).calls.find? n = some ⟨e, .answered reply⟩) :
    reply.isDefect = false := by
  have hseeded := Seed.seeded_apply seed entropy
  have hstore : s.backend.store = (seed.apply .empty entropy).store := by rw [hbackend]
  have hup : s.backend.down = [] := by rw [hbackend]
  rw [← hstore] at hseeded
  have hassured :=
    (assured_opened hlocks hup hseeded.unsubmitted).run hseeded.toProper hclock hmemory
  exact hassured.calls n e _ hanswered

/-- A trusted local caller submits a file; it is graded within a second, saved and answered. -/
def submitByRoot : List Event :=
  [.arrive .submit ⟨"\x7b\"course-id\": \"cs1\", \"assignment-id\": \"hw1\", \"root-user-nonce\": \"n\"\x7d",
      [⟨"a.txt", [104, 105]⟩]⟩, .proceed 0, .proceed 0, .proceed 0, .proceed 0] ++
    [Move.proceed, .proceed, .proceed, .proceed, .receive (.ok ⟨10, 10⟩) 1000000000, .proceed,
      .proceed, .proceed].map (.move 0) ++
    [.proceed 0]

/-- The answer to the submission does not blame the server. -/
theorem no_internal_error_submit :
    ∃ reply,
      ((opened smallServer).run submitByRoot).calls.find? 0 = some ⟨.submit, .answered reply⟩ ∧
        reply.isDefect = false := by
  obtain ⟨reply, hanswered⟩ : ∃ reply,
      ((opened smallServer).run submitByRoot).calls.find? 0 = some ⟨.submit, .answered reply⟩ :=
    ⟨_, rfl⟩
  obtain ⟨q, hsaved⟩ : ∃ q, ((opened smallServer).run submitByRoot).store.submissions =
      Table.empty.insert ⟨"cs1", "hw1", "root"⟩ [q] := ⟨_, rfl⟩
  have hclock : ∀ t ∈ (opened smallServer).clocks submitByRoot, t.InYears := by decide
  have hmemory : ∀ key,
      (((opened smallServer).run submitByRoot).store.submissionsOf key).length < 2 ^ 62 := by
    intro key
    rw [Store.submissionsOf, hsaved, Table.find?_insert]
    split <;> simp
  exact ⟨reply, hanswered,
    no_internal_error Seed.small .foreseeable (s := smallServer) rfl rfl hclock hmemory hanswered⟩

end Hall
end Endpoint
end Coursework
