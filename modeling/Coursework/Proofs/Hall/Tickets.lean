import Coursework.Proofs.Desk.Recorded
import Coursework.Proofs.Hall.NoInternal
import Coursework.Proofs.Hall.Writes

/-!
# What a ticket says

A request that comes to the desk has a ticket, made of the course and the assignment that it found
and of the sender that it was admitted as.  Whatever happened since, all of these are still in the
store, and the sender has a role in the course (`Ticket.Genuine`), so that a ticket leads back to
where its submission is kept.
-/

set_option autoImplicit false

namespace Coursework

/-- An account has a role in a course that lets it submit, whether it is enrolled with it or has it
by its server role. -/
def Store.Enrolls (s : Store) (course email : String) : Prop :=
  ∃ a role, s.account? email = some a ∧ a.courseRole? course = some role ∧
    role.satisfies .student = true

/-- Whoever is enrolled is so in any store with the same privileges. -/
theorem Store.Enrolls.of_samePrivileges {s u : Store} {course email : String}
    (h : s.Enrolls course email) (hsame : s.SamePrivileges u) : u.Enrolls course email := by
  obtain ⟨a, role, ha, hrole, hstudent⟩ := h
  have haccount := hsame.account email
  rw [ha, Option.map_some] at haccount
  obtain ⟨b, hb, hwithout⟩ := Option.map_eq_some_iff.1 haccount
  exact ⟨b, role, hb, by rw [Account.courseRole?_eq hwithout, hrole], hstudent⟩

namespace Request

theorem hasRole_of_authorize {schema : Schema} {i : Identity} (h : authorize schema i = .ok ())
    {role : CourseRole} (hrole : role ∈ schema.markers) : i.hasRole role = true := by
  rw [authorize_eq] at h
  split at h
  · next hall => exact hall role hrole
  · cases h

end Request

namespace Endpoint

/-! ## What was found -/

structure InStore (seeded : Store) (course : Option Course) (assignment : Option Assignment) :
    Prop where
  hasCourse : ∀ c, course = some c → ∃ id, seeded.course? id = some c
  hasAssignment : ∀ c a, course = some c → assignment = some a →
    ∃ id, seeded.assignment? c.id id = some a

theorem inStore_of_resolve {seeded : Store} {schema : Schema} {context : Context} {b : Backend}
    {course : Option Course} {assignment : Option Assignment}
    (hstore : seeded.SamePrivileges b.store)
    (h : Request.resolve schema context b = .ok (course, assignment)) :
    InStore seeded course assignment := by
  rw [Request.resolve] at h
  split at h
  · split at h
    · cases h
    · next c hfind =>
      have hcourse : ∃ id, seeded.course? id = some c :=
        ⟨_, (hstore.course _).symm.trans (Request.course?_of_findCourse hfind)⟩
      split at h
      · split at h
        · cases h
        · next a hassignment =>
          cases h
          have hfound : ∃ id, seeded.assignment? c.id id = some a :=
            ⟨_, (hstore.assignment _ _).symm.trans
              (Request.assignment?_of_findAssignment hassignment)⟩
          exact ⟨by rintro _ ⟨⟩; exact hcourse, by rintro _ _ ⟨⟩ ⟨⟩; exact hfound⟩
      · cases h
        exact ⟨by rintro _ ⟨⟩; exact hcourse, by rintro _ _ ⟨⟩ ⟨⟩⟩
  · cases h
    exact ⟨by rintro _ ⟨⟩, by rintro _ _ ⟨⟩⟩

namespace Phase

variable {R : Type}

def setting? : Phase R → Option (Option Course × Option Assignment)
  | .placed _ _ _ course assignment | .admitted _ _ course assignment _ => some (course, assignment)
  | .ready m => some (m.course, m.assignment)
  | .arrived _ | .visiting _ _ | .answered _ => none

/-- What was found after a step was so before it, or is found in this step. -/
theorem Goes.setting?_eq_some {kind : RequestKind R}
    {handle : Materialized R → Server → Work × Server} {d : Desk} {phase : Phase R}
    {after : Phase R × Desk} {setting : Option Course × Option Assignment}
    (hgoes : phase.Goes kind handle d after) (h : after.1.setting? = some setting) :
    phase.setting? = some setting ∨
      ∃ context, Request.resolve kind.schema context d.server.backend = .ok setting := by
  cases hgoes with
  | placed hplace =>
    obtain rfl := Option.some.inj h
    exact .inr ⟨_, Request.resolve_of_place hplace⟩
  | admitted => exact .inl h
  | completed hcomplete =>
    obtain ⟨rfl, rfl, -⟩ := Request.complete_eq_ok hcomplete
    exact .inl h
  | _ => simp [setting?] at h

/-- Who comes to the desk in a step was ready to submit. -/
theorem Goes.find?_visits {e : Shipped} {phase : Phase e.Body} {d : Desk}
    {after : Phase e.Body × Desk} {r : Nat} {v : Visit}
    (hgoes : phase.Goes e.kind e.handle d after) (hv : after.2.visits.find? r = some v) :
    d.visits.find? r = some v ∨
      ∃ m, (⟨e, phase⟩ : Call) = ⟨.submit, .ready m⟩ ∧ ticket m = .ok v.ticket := by
  cases hgoes with
  | @queued m t s hwork =>
    rw [Desk.arrive, Table.find?_insert] at hv
    split at hv
    · obtain rfl := Option.some.inj hv
      cases e with
      | submit =>
        rcases hticket : ticket m with f | t'
        · simp [Shipped.handle, hticket] at hwork
        · simp only [Shipped.handle, hticket, Prod.mk.injEq, Work.queue.injEq] at hwork
          exact .inr ⟨m, rfl, hwork.1 ▸ hticket⟩
      | auth | password | roster | peek | history => simp [Shipped.handle] at hwork
    · exact .inl hv
  | _ => exact .inl hv

end Phase

/-- A ticket for a course and an assignment of a store (`InStore`), of somebody who may submit
there, or of a trusted local caller. -/
structure Ticket.Genuine (seeded : Store) (t : Ticket) : Prop where
  course : seeded.course? t.course.id = some t.course
  assignment : seeded.assignment? t.course.id t.assignment.id = some t.assignment
  email : Text.trim t.email = t.email
  enrolled : t.email = Account.rootEmail ∨ seeded.Enrolls t.course.id t.email

namespace Hall

/-! ## What a request that may run has found -/

def FoundIn (seeded : Store) (h : Hall) : Prop :=
  ∀ n c course assignment, h.calls.find? n = some c →
    c.phase.setting? = some (course, assignment) → InStore seeded course assignment

theorem FoundIn.step {seeded : Store} {h : Hall} (hfound : h.FoundIn seeded)
    (hstore : seeded.SamePrivileges h.store) (event : Event) : (h.step event).FoundIn seeded := by
  intro n c course assignment hc hsetting
  rcases find?_step hc with hold | ⟨raw, hcame⟩ | ⟨before, d, -, hbefore, hgoes⟩
  · exact hfound n c course assignment hold hsetting
  · rw [hcame] at hsetting
    cases hsetting
  · rcases hgoes.setting?_eq_some hsetting with hearlier | ⟨context, hresolve⟩
    · exact hfound n _ course assignment hbefore hearlier
    · exact inStore_of_resolve hstore hresolve

theorem foundIn_run {s : Server} (hkeyed : s.backend.store.Keyed) (events : List Event) :
    ((opened s).run events).FoundIn s.backend.store := by
  have hstep : ∀ (h : Hall) (event : Event), h.Kept s.backend.store ∧ h.FoundIn s.backend.store →
      (h.step event).Kept s.backend.store ∧ (h.step event).FoundIn s.backend.store :=
    fun h event hh => ⟨hh.1.step hkeyed event, hh.2.step hh.1.store event⟩
  have hopened : (opened s).FoundIn s.backend.store :=
    fun n c course assignment hc => by simp [opened] at hc
  exact (run_induction hstep ⟨kept_opened, hopened⟩ events).2

/-- Who runs a request was admitted to its endpoint, under an email without blanks around it. -/
theorem exists_sender_of_ready {s : Server} (hproper : s.backend.store.Proper) {events : List Event}
    {n : Nat} {e : Shipped} {m : Materialized e.Body}
    (hready : ((opened s).run events).calls.find? n = some ⟨e, .ready m⟩) :
    ∃ i, m.identity = some i ∧ Vouched s.backend.store m.course i ∧
      Request.authorize e.kind.schema i = .ok () ∧
      Text.trim i.account.email = i.account.email := by
  obtain ⟨-, i, hi, hvouched⟩ := (kept_run hproper.toKeyed events).calls n _ hready
  have hsender : (Phase.ready m).sender? = some (m.course, i) := by rw [Phase.sender?, hi]; rfl
  rcases exists_admittedIn hready hsender with
    ⟨_, hbefore, -⟩ | ⟨front, back, context, -, hin⟩
  · simp [opened] at hbefore
  · obtain ⟨hauthenticate, hmay⟩ := hin.authenticated
    refine ⟨i, hi, hvouched, hmay, ?_⟩
    rcases Request.authenticate_cases hauthenticate with
      ⟨-, -, -, haccount⟩ | ⟨-, -, haccount⟩
    · rw [haccount]
      rfl
    · rw [(proper_run (h := opened s) hproper front).account _ _ haccount, Text.trim_trim]

theorem genuine_of_ready {s : Server} (hproper : s.backend.store.Proper) {events : List Event}
    {n : Nat} {m : Materialized SubmitRequest} {t : Ticket}
    (hready : ((opened s).run events).calls.find? n = some ⟨.submit, .ready m⟩)
    (hticket : ticket m = .ok t) : t.Genuine s.backend.store := by
  obtain ⟨i, hi, hcourse, hassignment, hemail⟩ := ticket_eq_ok hticket
  obtain ⟨j, hj, hvouched, hmay, htrim⟩ := exists_sender_of_ready hproper hready
  obtain rfl : i = j := Option.some.inj (hi.symm.trans hj)
  have hthere := foundIn_run hproper.toKeyed events n _ _ _ hready rfl
  obtain ⟨id, hc⟩ := hthere.hasCourse _ hcourse
  obtain ⟨id', ha⟩ := hthere.hasAssignment _ _ hcourse hassignment
  refine ⟨(hproper.course id _ hc).symm ▸ hc, (hproper.assignment _ id' _ ha).2.symm ▸ ha,
    hemail ▸ htrim, ?_⟩
  rcases hvouched.sender with ⟨-, haccount⟩ | ⟨-, a, ha, hsame⟩
  · left
    rw [hemail, haccount]
    rfl
  · right
    -- the role that lets somebody submit is the role of the account
    obtain ⟨role, hrole, hstudent⟩ :=
      (i.hasRole_iff .student).1 (Request.hasRole_of_authorize hmay List.mem_cons_self)
    rw [hvouched.role, hcourse, Option.bind_some, Account.courseRole?_eq hsame] at hrole
    exact ⟨a, role, hemail ▸ ha, hrole, hstudent⟩

/-! ## The desk of a hall -/

/-- A submission that is at the desk after an event was there before, or has just come from a
request that was ready. -/
theorem find?_visits_step {h : Hall} {event : Event} {r : Nat} {v : Visit}
    (hv : (h.step event).desk.visits.find? r = some v) :
    (∃ before, h.desk.visits.find? r = some before ∧ before.ticket = v.ticket) ∨
      ∃ n m, event = .proceed n ∧ h.calls.find? n = some ⟨.submit, .ready m⟩ ∧
        ticket m = .ok v.ticket := by
  rcases event with ⟨e, raw⟩ | n | ⟨q, m⟩ | u
  · exact .inl ⟨v, hv, rfl⟩
  · rcases hn : h.calls.find? n with _ | ⟨e, phase⟩
    · rw [step, proceed, hn] at hv
      exact .inl ⟨v, hv, rfl⟩
    · rw [step, proceed_of_find? hn] at hv
      rcases (phase.goes_proceed _ _ _).find?_visits hv with hold | ⟨m, hcall, hticket⟩
      · exact .inl ⟨v, hold, rfl⟩
      · exact .inr ⟨n, m, rfl, hn.trans (congrArg some hcall), hticket⟩
  · obtain hold | ⟨hcame, -⟩ | ⟨before, _, -, hbefore, hticket, -⟩ :=
      Desk.find?_step (e := .move q m) hv
    · exact .inl ⟨v, hold, rfl⟩
    · cases hcame
    · exact .inl ⟨before, hbefore, hticket⟩
  · exact .inl ⟨v, hv, rfl⟩

/-- Every submission at the desk was there at the beginning of a run, or there is a moment of it
when it came from a request that was ready. -/
theorem exists_arrival {h : Hall} {events : List Event} {r : Nat} {v : Visit}
    (hv : (h.run events).desk.visits.find? r = some v) :
    (∃ before, h.desk.visits.find? r = some before ∧ before.ticket = v.ticket) ∨
      ∃ front n back m, events = front ++ .proceed n :: back ∧
        (h.run front).calls.find? n = some ⟨.submit, .ready m⟩ ∧ ticket m = .ok v.ticket := by
  induction events generalizing h with
  | nil => exact .inl ⟨v, hv, rfl⟩
  | cons event events ih =>
    rcases ih hv with ⟨w, hw, hsame⟩ | ⟨front, n, back, m, rfl, hready, hticket⟩
    · rcases find?_visits_step hw with ⟨before, hbefore, hticket⟩ | ⟨n, m, rfl, hready, hticket⟩
      · exact .inl ⟨before, hbefore, hticket.trans hsame⟩
      · exact .inr ⟨[], n, events, m, rfl, hready, hsame ▸ hticket⟩
    · exact .inr ⟨event :: front, n, back, m, rfl, hready, hticket⟩

theorem genuine_of_find? {s : Server} (hproper : s.backend.store.Proper) {events : List Event}
    {r : Nat} {v : Visit} (hv : ((opened s).run events).desk.visits.find? r = some v) :
    v.ticket.Genuine s.backend.store := by
  rcases exists_arrival hv with ⟨before, hbefore, -⟩ | ⟨front, n, back, m, -, hready, hticket⟩
  · simp [opened, Desk.opened] at hbefore
  · exact genuine_of_ready hproper hready hticket

end Hall
end Endpoint
end Coursework
