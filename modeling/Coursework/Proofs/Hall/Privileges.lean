import Coursework.Proofs.Confinement.Endpoints
import Coursework.Proofs.Hall.Basic
import Coursework.Proofs.Store.Seeded

/-!
# Privileges stay as they were seeded

Requests write to the store in two ways.  A submission joins its list; and a new password is written
back with the whole account that the sender was identified by, some time before.  That account may
be stale in its password, but in nothing else (`Vouched`): nobody ever writes a name, a role or a
list of courses that is not the seeded one, and the identity of a trusted local caller is never
written.

So courses, assignments and accounts stay as they were seeded but for passwords, in every run
(`Kept`), and what a request may do follows from the seed and from the nonce that it shows.
-/

set_option autoImplicit false

namespace Coursework

/-- Two stores have the same courses, assignments and accounts, but for passwords
(`Account.withoutPassword`) and whatever was submitted. -/
structure Store.SamePrivileges (s after : Store) : Prop where
  course : ∀ id, after.course? id = s.course? id
  assignment : ∀ course id, after.assignment? course id = s.assignment? course id
  account : ∀ email, (after.account? email).map Account.withoutPassword =
    (s.account? email).map Account.withoutPassword

namespace Store.SamePrivileges

variable {s u v : Store}

theorem refl (s : Store) : s.SamePrivileges s :=
  ⟨fun _ => rfl, fun _ _ => rfl, fun _ => rfl⟩

theorem exists_account (h : s.SamePrivileges u) {email : String} {a : Account}
    (ha : u.account? email = some a) :
    ∃ b, s.account? email = some b ∧ a.withoutPassword = b.withoutPassword := by
  have hsame := h.account email
  rw [ha, Option.map_some] at hsame
  obtain ⟨b, hb, hwithout⟩ := Option.map_eq_some_iff.1 hsame.symm
  exact ⟨b, hb, hwithout.symm⟩

theorem save (h : s.SamePrivileges u) {r : Submission} (hsave : u.save r = .ok v) :
    s.SamePrivileges v := by
  obtain ⟨-, rfl⟩ := save_eq_ok hsave
  exact ⟨h.course, h.assignment, h.account⟩

theorem putAccount (h : s.SamePrivileges u) {a b : Account} (hput : u.putAccount a = .ok v)
    (hb : s.account? a.email = some b) (hsame : a.withoutPassword = b.withoutPassword) :
    s.SamePrivileges v := by
  have haccount := account?_putAccount hput
  obtain ⟨-, rfl⟩ := putAccount_eq_ok hput
  refine ⟨h.course, h.assignment, fun email => ?_⟩
  rw [haccount]
  split
  · next hemail => rw [hemail, hb, Option.map_some, Option.map_some, hsame]
  · exact h.account email

end Store.SamePrivileges

theorem Account.email_eq {a b : Account} (h : a.withoutPassword = b.withoutPassword) :
    a.email = b.email := by
  have hemail := congrArg email h
  exact hemail

theorem Account.role_eq {a b : Account} (h : a.withoutPassword = b.withoutPassword) :
    a.role = b.role := by
  have hrole := congrArg role h
  exact hrole

theorem Account.courses_eq {a b : Account} (h : a.withoutPassword = b.withoutPassword) :
    a.courses = b.courses := by
  have hcourses := congrArg courses h
  exact hcourses

theorem Account.courseRole?_eq {a b : Account} (h : a.withoutPassword = b.withoutPassword)
    (course : String) : a.courseRole? course = b.courseRole? course := by
  rw [courseRole?, courseRole?, role_eq h, courses_eq h]

/-- A role in a course that is not the listed one comes from a server role. -/
theorem Account.role_of_courseRole?_ne {a : Account} {course : String} (hroot : a.role ≠ .root)
    (h : a.courseRole? course ≠ a.courses.find? course) : a.role = .admin ∨ a.role = .owner := by
  rw [courseRole?] at h
  cases hrole : a.role with
  | user =>
    rw [hrole] at h
    exact absurd rfl h
  | admin => exact .inl rfl
  | owner => exact .inr rfl
  | root => exact absurd hrole hroot

namespace Request

/-- Whoever is identified showed a live nonce and is root, or is an account in the store. -/
theorem authenticate_cases {b : Backend} {nonces : Nonces} {context : Context}
    {course : Option Course} {i : Identity}
    (h : (authenticate b nonces context course).1 = .ok i) :
    (context.nonce ≠ "" ∧ nonces.contains context.nonce = true ∧ i.viaNonce = true ∧
        i.account = Account.root) ∨
      (context.nonce = "" ∧ i.viaNonce = false ∧
        b.store.account? (Text.trim context.userEmail) = some i.account) := by
  by_cases hnonce : context.nonce = ""
  · have haccount := account?_of_authenticate h hnonce
    rw [authenticate, if_pos hnonce] at h
    obtain ⟨a, -, ha⟩ : ∃ a, checkCredentials b context = .ok a ∧ identify a course false = i := by
      rcases hcheck : checkCredentials b context with f | a
      · rw [hcheck] at h
        cases h
      · rw [hcheck] at h
        exact ⟨a, rfl, Except.ok.inj h⟩
    exact .inr ⟨hnonce, ha ▸ rfl, haccount⟩
  · rw [authenticate, if_neg hnonce, Nonces.consume, if_neg hnonce] at h
    cases hlive : nonces.contains context.nonce with
    | false =>
      rw [hlive] at h
      cases h
    | true =>
      rw [hlive] at h
      obtain rfl := Except.ok.inj h
      exact .inl ⟨hnonce, rfl, rfl, rfl⟩

end Request

namespace Endpoint

/-! ## What is known of a request -/

structure Found (seeded : Store) (schema : Schema) (course : Option Course)
    (assignment : Option Assignment) : Prop where
  course : schema.needsCourse = true → ∃ c, course = some c ∧ seeded.course? c.id = some c
  assignment : schema.needsCourse = true → schema.needsAssignment = true →
    ∃ a, assignment = some a

/-- The sender of a request is a trusted local caller, or the account in the store but for the
password. -/
structure Vouched (seeded : Store) (course : Option Course) (i : Identity) : Prop where
  sender : (i.viaNonce = true ∧ i.account = Account.root) ∨
    (i.viaNonce = false ∧ ∃ a, seeded.account? i.account.email = some a ∧
      i.account.withoutPassword = a.withoutPassword)
  role : i.courseRole = course.bind fun c => i.account.courseRole? c.id

namespace Vouched

variable {seeded : Store} {course : Option Course} {i : Identity}

theorem exists_account (h : Vouched seeded course i) (hroot : i.account.isRoot = false) :
    ∃ a, seeded.account? i.account.email = some a ∧
      i.account.withoutPassword = a.withoutPassword := by
  rcases h.sender with ⟨-, haccount⟩ | ⟨-, hstored⟩
  · rw [haccount] at hroot
    cases hroot
  · exact hstored

/-- A sender with a password has another role than the listed one by the seeded server role only. -/
theorem role_of_ne (h : Vouched seeded course i) (hseeded : seeded.Seeded)
    (hpassword : i.viaNonce = false) {c : Course} (hc : course = some c) :
    ∃ a, seeded.account? i.account.email = some a ∧
      (i.courseRole ≠ a.courses.find? c.id → a.role = .admin ∨ a.role = .owner) := by
  obtain ⟨hnonce, -⟩ | ⟨-, a, ha, hsame⟩ := h.sender
  · rw [hpassword] at hnonce
    cases hnonce
  · refine ⟨a, ha, fun hne => ?_⟩
    have hrole := h.role
    rw [hc, Option.bind_some, Account.courseRole?_eq hsame] at hrole
    rw [hrole] at hne
    exact Account.role_of_courseRole?_ne (hseeded.rootless _ a ha) hne

end Vouched

/-- Whoever is identified is `Vouched` for by any store with the same privileges. -/
theorem vouched_of_authenticate {seeded : Store} {b : Backend} {nonces : Nonces} {context : Context}
    {course : Option Course} {i : Identity} (hkeyed : seeded.Keyed)
    (hstore : seeded.SamePrivileges b.store)
    (h : (Request.authenticate b nonces context course).1 = .ok i) : Vouched seeded course i := by
  refine ⟨?_, Request.courseRole_of_authenticate h⟩
  rcases Request.authenticate_cases h with ⟨-, -, hvia, haccount⟩ | ⟨-, hvia, haccount⟩
  · exact .inl ⟨hvia, haccount⟩
  · obtain ⟨a, ha, hsame⟩ := hstore.exists_account haccount
    have hemail := Account.email_eq hsame
    rw [hkeyed.account _ a ha] at hemail
    exact .inr ⟨hvia, a, hemail ▸ ha, hsame⟩

theorem found_of_resolve {seeded : Store} {schema : Schema} {context : Context} {b : Backend}
    {course : Option Course} {assignment : Option Assignment} (hkeyed : seeded.Keyed)
    (hstore : seeded.SamePrivileges b.store)
    (h : Request.resolve schema context b = .ok (course, assignment)) :
    Found seeded schema course assignment := by
  refine ⟨fun hneeds => ?_, fun hcourse hneeds => ?_⟩
  · obtain ⟨c, hfind, rfl⟩ := Request.findCourse_of_resolve h hneeds
    have hc := Request.course?_of_findCourse hfind
    rw [hstore.course] at hc
    exact ⟨c, rfl, (hkeyed.course _ c hc).symm ▸ hc⟩
  · rw [Request.resolve, if_pos hcourse] at h
    split at h
    · cases h
    · rw [if_pos hneeds] at h
      split at h
      · cases h
      · next a _ =>
        cases h
        exact ⟨a, rfl⟩

namespace Phase

variable {R : Type}

/-- What is known of a request at a phase: that its course and assignment are in the seeded store,
and that its sender is vouched for by it. -/
def Known (seeded : Store) (schema : Schema) : Phase R → Prop
  | .placed _ _ _ course assignment => Found seeded schema course assignment
  | .admitted _ _ course assignment identity =>
    Found seeded schema course assignment ∧ ∃ i, identity = some i ∧ Vouched seeded course i
  | .ready m =>
    Found seeded schema m.course m.assignment ∧
      ∃ i, m.identity = some i ∧ Vouched seeded m.course i
  | .arrived _ | .visiting _ _ | .answered _ => True

/-- As long as the store has the seeded privileges, what a request comes to know is as seeded. -/
theorem Known.proceed {seeded : Store} {kind : RequestKind R}
    {handle : Materialized R → Server → Work × Server} {d : Desk} {phase : Phase R}
    {after : Phase R × Desk} (h : phase.Known seeded kind.schema) (hkeyed : seeded.Keyed)
    (hstore : seeded.SamePrivileges d.server.backend.store) (huser : kind.schema.needsUser = true)
    (hgoes : phase.Goes kind handle d after) : after.1.Known seeded kind.schema := by
  cases hgoes with
  | placed hplace => exact found_of_resolve hkeyed hstore (Request.resolve_of_place hplace)
  | admitted hentry =>
    obtain ⟨i, rfl, hauthenticate, -⟩ := Request.admitSender_eq_ok hentry huser
    exact ⟨h, i, rfl, vouched_of_authenticate hkeyed hstore (congrArg Prod.fst hauthenticate)⟩
  | completed hcomplete =>
    obtain ⟨rfl, rfl, rfl⟩ := Request.complete_eq_ok hcomplete
    exact h
  | _ => trivial

end Phase

/-! ## What requests write -/

theorem Stage.Goes.samePrivileges {r : Nat} {t : Ticket} {s : Server} {stage : Stage} {m : Move}
    {after : Stage × Server} (hgoes : Stage.Goes r t s stage m after) {seeded : Store}
    (h : seeded.SamePrivileges s.backend.store) : seeded.SamePrivileges after.2.backend.store := by
  obtain hsame | ⟨_, _, _, _, -, hsave⟩ := hgoes.store
  · rwa [hsame]
  · exact h.save hsave

theorem not_isRoot_of_withNewPassword {m : Materialized PasswordChange} {salt : String}
    {changed : Account × Bool} (h : withNewPassword m salt = .ok changed) {i : Identity}
    (hi : m.identity = some i) : i.account.isRoot = false := by
  rw [withNewPassword, Materialized.needIdentity, hi] at h
  dsimp only at h
  split at h
  · cases h
  · next hroot => exact Bool.eq_false_iff.2 hroot

/-- What is written back for a new password is the seeded account but for the password. -/
theorem samePrivileges_changePassword {seeded : Store} {s : Server}
    (h : seeded.SamePrivileges s.backend.store) {m : Materialized PasswordChange}
    (hsender : ∀ i, m.identity = some i → Vouched seeded m.course i) :
    seeded.SamePrivileges (changePassword m s).2.backend.store := by
  simp only [changePassword]
  split
  · exact h
  · next a duplicate hnew =>
    obtain ⟨i, hi, hemail, hsame⟩ := withNewPassword_eq_ok hnew
    split
    · exact h
    · next backend hput =>
      have hroot : i.account.isRoot = false := not_isRoot_of_withNewPassword hnew hi
      obtain ⟨b, hb, hstored⟩ := (hsender i hi).exists_account hroot
      exact h.putAccount (Backend.putAccount_eq_ok hput) (hemail ▸ hb) (hsame.trans hstored)

/-- Whatever endpoint a materialized request goes to, its handler keeps privileges
(`SamePrivileges`). -/
theorem Shipped.samePrivileges_handle {seeded : Store} {s : Server}
    (h : seeded.SamePrivileges s.backend.store) (e : Shipped) {m : Materialized e.Body}
    (hsender : ∀ i, m.identity = some i → Vouched seeded m.course i) :
    seeded.SamePrivileges (e.handle m s).2.backend.store := by
  cases e with
  | auth | roster | peek | history => exact h
  | password => exact samePrivileges_changePassword h hsender
  | submit =>
    simp only [handle]
    split <;> exact h

theorem Shipped.needsUser (e : Shipped) : e.kind.schema.needsUser = true := by
  cases e <;> rfl

namespace Hall

/-! ## Runs -/

/-- Nothing but passwords and submissions has changed since the seed, and all requests know what was
seeded. -/
structure Kept (seeded : Store) (h : Hall) : Prop where
  store : seeded.SamePrivileges h.store
  calls : ∀ n c, h.calls.find? n = some c → c.phase.Known seeded c.endpoint.kind.schema

theorem Kept.advance {seeded : Store} {h : Hall} (hkept : h.Kept seeded) {n : Nat} {c : Call}
    (hc : h.calls.find? n = some c) :
    seeded.SamePrivileges (h.advance c).2.server.backend.store := by
  obtain ⟨e, phase⟩ := c
  have hknown := hkept.calls n _ hc
  have hgoes := phase.goes_proceed e.kind e.handle h.desk
  rw [Hall.advance]
  generalize phase.proceed e.kind e.handle h.desk = after at hgoes
  cases hgoes with
  | incomplete hcomplete | completed hcomplete =>
    have hsame := congrArg (fun outcome => outcome.2.backend) hcomplete
    rw [Request.backend_complete] at hsame
    exact hsame ▸ hkept.store
  | handled hwork | queued hwork =>
    obtain ⟨-, i, hi, hvouched⟩ := hknown
    have hhandled := e.samePrivileges_handle (s := h.server) hkept.store
      fun j hj => Option.some.inj (hi.symm.trans hj) ▸ hvouched
    rw [Hall.server, hwork] at hhandled
    exact hhandled
  | _ => exact hkept.store

theorem Kept.step {seeded : Store} {h : Hall} (hkept : h.Kept seeded) (hkeyed : seeded.Keyed)
    (e : Event) : (h.step e).Kept seeded := by
  refine ⟨?_, fun n c hc => ?_⟩
  · cases e with
    | arrive endpoint raw => exact hkept.store
    | meanwhile s => exact hkept.store
    | move r m =>
      rw [Hall.step, Hall.store, Desk.move]
      split
      · exact hkept.store
      · exact (Stage.goes_move ..).samePrivileges hkept.store
    | proceed n =>
      rw [Hall.step]
      cases hn : h.calls.find? n with
      | none =>
        rw [Hall.proceed, hn]
        exact hkept.store
      | some c =>
        rw [proceed_of_find? hn]
        exact hkept.advance hn
  · rcases find?_step hc with hold | ⟨raw, hcame⟩ | ⟨before, d, -, hbefore, hgoes⟩
    · exact hkept.calls n c hold
    · rw [hcame]
      trivial
    · exact (hkept.calls n _ hbefore).proceed hkeyed hkept.store c.endpoint.needsUser hgoes

theorem kept_opened {s : Server} : (opened s).Kept s.backend.store :=
  ⟨.refl _, fun n c hc => by simp [opened] at hc⟩

theorem kept_run {s : Server} (hkeyed : s.backend.store.Keyed) (events : List Event) :
    ((opened s).run events).Kept s.backend.store :=
  run_induction (fun _ e hkept => hkept.step hkeyed e) kept_opened events

end Hall

/-! ## When a sender was admitted -/

namespace Phase

variable {R : Type}

def sender? : Phase R → Option (Option Course × Identity)
  | .admitted _ _ course _ identity => identity.map fun i => (course, i)
  | .ready m => m.identity.map fun i => (m.course, i)
  | .arrived _ | .placed _ _ _ _ _ | .visiting _ _ | .answered _ => none

/-- Who is admitted after a step was so before it, or is admitted in this step. -/
theorem Goes.sender?_eq_some {kind : RequestKind R}
    {handle : Materialized R → Server → Work × Server}
    {d : Desk} {phase : Phase R} {after : Phase R × Desk} {course : Option Course} {i : Identity}
    (hgoes : phase.Goes kind handle d after) (h : after.1.sender? = some (course, i)) :
    phase.sender? = some (course, i) ∨
      ∃ files r context assignment, phase = .placed files r context course assignment ∧
        (Request.admitSender kind.schema d.server.backend d.server.nonces context course).1 =
          .ok (some i) := by
  cases hgoes with
  | admitted hentry =>
    obtain ⟨j, rfl, hpair⟩ := Option.map_eq_some_iff.1 h
    obtain ⟨rfl, rfl⟩ := Prod.mk.inj hpair
    exact .inr ⟨_, _, _, _, rfl, by rw [hentry]⟩
  | completed hcomplete =>
    obtain ⟨rfl, rfl, rfl⟩ := Request.complete_eq_ok hcomplete
    exact .inl h
  | _ => simp [Phase.sender?] at h

end Phase

namespace Hall

/-- A request is admitted as somebody when it goes on in a hall: it was placed, and `admitSender`
lets it pass. -/
def AdmittedIn (h : Hall) (n : Nat) (e : Shipped) (context : Context) (course : Option Course)
    (i : Identity) : Prop :=
  ∃ files r assignment,
    h.calls.find? n = some ⟨e, .placed files r context course assignment⟩ ∧
      (Request.admitSender e.kind.schema h.server.backend h.server.nonces context course).1 =
        .ok (some i)

/-- Whoever is admitted was so at the beginning of a run, or there is a moment of it when they were
(`AdmittedIn`). -/
theorem exists_admittedIn {h : Hall} {events : List Event} {n : Nat} {e : Shipped}
    {phase : Phase e.Body} {course : Option Course} {i : Identity}
    (hcall : (h.run events).calls.find? n = some ⟨e, phase⟩)
    (hsender : phase.sender? = some (course, i)) :
    (∃ before, h.calls.find? n = some ⟨e, before⟩ ∧ before.sender? = some (course, i)) ∨
      ∃ front back context, events = front ++ .proceed n :: back ∧
        (h.run front).AdmittedIn n e context course i := by
  induction events generalizing h with
  | nil => exact .inl ⟨phase, hcall, hsender⟩
  | cons event events ih =>
    rcases ih hcall with ⟨after, hafter, hadmitted⟩ | ⟨front, back, context, rfl, hin⟩
    · rcases find?_step hafter with hold | ⟨raw, rfl⟩ | ⟨before, d, rfl, hbefore, hgoes⟩
      · exact .inl ⟨after, hold, hadmitted⟩
      · cases hadmitted
      · rcases hgoes.sender?_eq_some hadmitted with
          hearlier | ⟨files, r, context, assignment, rfl, hentry⟩
        · exact .inl ⟨before, hbefore, hearlier⟩
        · exact .inr ⟨[], events, context, rfl, files, r, assignment, hbefore, hentry⟩
    · exact .inr ⟨event :: front, back, context, rfl, hin⟩

theorem AdmittedIn.authenticated {h : Hall} {n : Nat} {e : Shipped} {context : Context}
    {course : Option Course} {i : Identity} (hin : h.AdmittedIn n e context course i) :
    (Request.authenticate h.server.backend h.server.nonces context course).1 = .ok i ∧
      Request.authorize e.kind.schema i = .ok () := by
  obtain ⟨_, _, _, -, hentry⟩ := hin
  obtain ⟨j, hj, hauthenticate, hmay⟩ :=
    Request.admitSender_eq_ok (Prod.ext hentry rfl) e.needsUser
  obtain rfl := Option.some.inj hj
  exact ⟨congrArg Prod.fst hauthenticate, hmay⟩

theorem AdmittedIn.isRoot_iff {h : Hall} {n : Nat} {e : Shipped} {context : Context}
    {course : Option Course} {i : Identity} (hin : h.AdmittedIn n e context course i)
    (hrootless : ∀ email a, h.store.account? email = some a → a.role ≠ .root) :
    i.account.role = .root ↔
      context.nonce ≠ "" ∧ h.server.nonces.contains context.nonce = true := by
  rcases Request.authenticate_cases hin.authenticated.1 with
    ⟨hnonce, hlive, -, haccount⟩ | ⟨hnonce, -, haccount⟩
  · exact ⟨fun _ => ⟨hnonce, hlive⟩, fun _ => by rw [haccount]; rfl⟩
  · refine ⟨fun hroot => absurd hroot (hrootless _ _ haccount), fun hshown => ?_⟩
    exact absurd hnonce hshown.1

/-- **Privileges are what the seed made them.**  Let a server start with what a seed leaves in an
empty store, whether it went through or was refused on the way.  Then, whatever requests come to the
six endpoints and however their steps come in between each other,

* courses, assignments and accounts are those of the seed, but for passwords (`SamePrivileges`);
* no account is root;
* a request that may run is root if and only if it showed a nonce that was live when it was
  admitted, and if its sender showed a password, the role in its course is the seeded one, unless
  the seed made the sender admin or owner of the server. -/
theorem privileges_as_seeded (seed : Seed) (entropy : Entropy) {s : Server}
    (hstore : s.backend.store = (seed.apply .empty entropy).store) (events : List Event) :
    (seed.apply .empty entropy).store.SamePrivileges ((opened s).run events).store ∧
      (∀ email a, ((opened s).run events).store.account? email = some a → a.role ≠ .root) ∧
      ∀ n e m, ((opened s).run events).calls.find? n = some ⟨e, .ready m⟩ →
        ∃ i, m.identity = some i ∧
          (∃ front back context, events = front ++ .proceed n :: back ∧
            ((opened s).run front).AdmittedIn n e context m.course i ∧
            (i.account.role = .root ↔ context.nonce ≠ "" ∧
              ((opened s).run front).server.nonces.contains context.nonce = true)) ∧
          (i.viaNonce = false → ∀ c, m.course = some c →
            ∃ a, (seed.apply .empty entropy).store.account? i.account.email = some a ∧
              (i.courseRole ≠ a.courses.find? c.id → a.role = .admin ∨ a.role = .owner)) := by
  have hseeded := Seed.seeded_apply seed entropy
  rw [← hstore] at hseeded ⊢
  have hkept := kept_run hseeded.toKeyed
  have hrootless : ∀ events email a, ((opened s).run events).store.account? email = some a →
      a.role ≠ .root := by
    intro events email a ha
    obtain ⟨b, hb, hsame⟩ := (hkept events).store.exists_account ha
    exact Account.role_eq hsame ▸ hseeded.rootless email b hb
  refine ⟨(hkept events).store, hrootless events, fun n e m hready => ?_⟩
  obtain ⟨-, i, hi, hvouched⟩ := (hkept events).calls n _ hready
  have hsender : (Phase.ready m).sender? = some (m.course, i) := by rw [Phase.sender?, hi]; rfl
  refine ⟨i, hi, ?_, fun hpassword c hc => hvouched.role_of_ne hseeded hpassword hc⟩
  rcases exists_admittedIn hready hsender with
    ⟨_, hbefore, -⟩ | ⟨front, back, context, hevents, hin⟩
  · simp [opened] at hbefore
  · exact ⟨front, back, context, hevents, hin, hin.isRoot_iff (hrootless front)⟩

def smallServer : Server :=
  { Server.start (Seed.small.apply .empty .foreseeable).store ⟨0, 0⟩ .foreseeable
      (.generous 0) .empty
      "/uploads" with nonces := ⟨["n"]⟩ }

def rosterByRoot : List Event :=
  [.arrive .roster ⟨"\x7b\"course-id\": \"cs1\", \"root-user-nonce\": \"n\"\x7d", []⟩,
    .proceed 0, .proceed 0, .proceed 0]

/-- The caller is root, and the nonce was live when the caller was admitted. -/
theorem privileges_as_seeded_roster :
    ∃ m i front context,
      ((opened smallServer).run rosterByRoot).calls.find? 0 = some ⟨.roster, .ready m⟩ ∧
        m.identity = some i ∧ i.account.role = .root ∧
        ((opened smallServer).run front).AdmittedIn 0 .roster context m.course i ∧
        ((opened smallServer).run front).server.nonces.contains context.nonce = true := by
  obtain ⟨m, hready, hroot⟩ : ∃ m,
      ((opened smallServer).run rosterByRoot).calls.find? 0 = some ⟨.roster, .ready m⟩ ∧
        m.identity.map (fun i => i.account.role) = some .root := ⟨_, rfl, rfl⟩
  obtain ⟨-, -, hadmitted⟩ :=
    privileges_as_seeded Seed.small .foreseeable (s := smallServer) rfl rosterByRoot
  obtain ⟨i, hi, ⟨front, _, context, -, hin, hiff⟩, -⟩ := hadmitted 0 .roster m hready
  rw [hi] at hroot
  have hrole := Option.some.inj hroot
  exact ⟨m, i, front, context, hready, hi, hrole, hin, (hiff.1 hrole).2⟩

end Hall
end Endpoint
end Coursework
