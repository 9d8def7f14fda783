import Coursework.Proofs.Desk.Assured
import Coursework.Proofs.Hall.Privileges
import Coursework.Proofs.Submit

/-!
# Answers that blame the server

Six locators say that something is wrong with the server and not with the request: an internal
error, a schema that makes no sense, a roster that cannot be had.  `Reply.isDefect` tells such
answers from all others.

This is about one request at a time.  What it has come to know leaves no way to such an answer: its
course, assignment and sender are there because the schema asks for them and the store keeps them
(`Phase.Known`), its files are there because they were filled in (`Shipped.Hydrated`), a new
password is written back because no account in a proper store has a blank email, and what is shown
can be written because its times are in the years 0 to 9999.
-/

set_option autoImplicit false

namespace Coursework

open Json Time

/-- The locators of faults that lie with the server: -500, and those of a schema or a roster (-310
to -314). -/
def Locator.defects : List Locator :=
  [.internal, .roleWithoutCourse, .rosterWithoutCourse, .rosterNotSettable, .rosterFetchFailed,
    .filesNotSettable]

example : Locator.defects.map Locator.code = ["-500", "-310", "-311", "-312", "-313", "-314"] := rfl

def Fault.isDefect (f : Fault) : Bool :=
  Locator.defects.contains f.locator

/-- Whether an answer says that the server is at fault, by the locator of a fault or by a handler
that crashed. -/
def Reply.isDefect : Reply → Bool
  | .content _ => false
  | .refused f => f.isDefect
  | .crashed => true

theorem Reply.isDefect_ofContent {written : Except Unwritable Value} (h : ∃ v, written = .ok v) :
    (Reply.ofContent written).isDefect = false := by
  obtain ⟨v, rfl⟩ := h
  rfl

namespace Request

variable {R : Type}

/-! ## The stages of a request -/

section Faults

variable {b : Backend} (hup : b.down = []) {context : Context} {f : Fault}
include hup

theorem isDefect_of_findCourse (h : findCourse b context = .error f) : f.isDefect = false := by
  simp only [findCourse, Backend.course?, Backend.guarded_of_up hup] at h
  split at h
  · cases h
    rfl
  · rcases hc : b.store.course? (normalId context.courseId) with _ | c <;> rw [hc] at h <;> cases h
    rfl

theorem isDefect_of_findAssignment {c : Course} (h : findAssignment b context c = .error f) :
    f.isDefect = false := by
  simp only [findAssignment, Backend.assignment?, Backend.guarded_of_up hup] at h
  split at h
  · cases h
    rfl
  · rcases ha : b.store.assignment? c.id (normalId context.assignmentId) with _ | a <;>
      rw [ha] at h <;> cases h
    rfl

theorem isDefect_of_resolve {schema : Schema} (h : resolve schema context b = .error f) :
    f.isDefect = false := by
  rw [resolve] at h
  split at h
  · split at h
    · next hfind =>
      cases h
      exact isDefect_of_findCourse hup hfind
    · split at h
      · split at h
        · next hfind =>
          cases h
          exact isDefect_of_findAssignment hup hfind
        · cases h
      · cases h
  · cases h

omit hup in
theorem isDefect_of_place {kind : RequestKind R} {raw : RawRequest} {s : Server}
    (hup : s.backend.down = []) (hvalid : kind.schema.validate = .ok ())
    (h : place kind raw s = .error f) : f.isDefect = false := by
  rw [place] at h
  split at h
  · cases h
    rfl
  · rw [hvalid] at h
    dsimp only at h
    split at h
    · next hresolve =>
      cases h
      exact isDefect_of_resolve hup hresolve
    · cases h

theorem isDefect_of_authenticate {nonces left : Nonces} {course : Option Course}
    (h : authenticate b nonces context course = (.error f, left)) : f.isDefect = false := by
  rw [authenticate] at h
  split at h
  · have hcheck := congrArg Prod.fst h
    simp only [checkCredentials, Backend.account?, Backend.guarded_of_up hup] at hcheck
    split at hcheck
    · cases hcheck
      rfl
    · rcases ha : b.store.account? (Text.trim context.userEmail) with _ | a <;> rw [ha] at hcheck
      · cases hcheck
        rfl
      · dsimp only at hcheck
        split at hcheck <;> cases hcheck
        rfl
  · split at h <;> cases h
    rfl

theorem isDefect_of_admitSender {schema : Schema} {nonces left : Nonces} {course : Option Course}
    (h : admitSender schema b nonces context course = (.error f, left)) : f.isDefect = false := by
  rw [admitSender] at h
  split at h
  · split at h
    · next hauthenticate =>
      cases h
      exact isDefect_of_authenticate hup hauthenticate
    · split at h
      · next hauthorize =>
        cases h
        rw [authorize_eq] at hauthorize
        split at hauthorize <;> cases hauthorize
        rfl
      · cases h
  · cases h

end Faults

end Request

theorem Store.exists_roster {s : Store} {id : String} {c : Course} (h : s.course? id = some c) :
    ∃ entries, s.roster id = .ok entries := by
  rw [roster, if_pos ((Table.contains_iff _ _).2 ⟨c, h⟩)]
  exact ⟨_, rfl⟩

namespace Endpoint

namespace Shipped

/-- What the server fills in is there: the files of a submission. -/
def Hydrated : (e : Shipped) → e.Body → Prop
  | submit, r => ∃ set, r.files = some set
  | auth, _ | password, _ | roster, _ | peek, _ | history, _ => True

theorem validate_schema (e : Shipped) : e.kind.schema.validate = .ok () := by
  cases e <;> rfl

/-- An endpoint either has no fields to fill, or the roster of a course that is there, or files,
which can be missing or not be kept. -/
theorem isDefect_of_complete {seeded : Store} (e : Shipped) {files : List Upload} {r : e.Body}
    {course : Option Course} {assignment : Option Assignment} {identity : Option Identity}
    {s u : Server} {f : Fault} (hfound : Found seeded e.kind.schema course assignment)
    (hstore : seeded.SamePrivileges s.backend.store) (hup : s.backend.down = [])
    (h : Request.complete e.kind files r course assignment identity s = (.error f, u)) :
    f.isDefect = false := by
  cases e with
  | auth | password | peek | history =>
    rw [Request.complete_of_no_fields rfl] at h
    cases h
  | roster =>
    obtain ⟨c, rfl, hc⟩ := hfound.course rfl
    obtain ⟨entries, hroster⟩ := Store.exists_roster ((hstore.course c.id).trans hc)
    have hfetched : s.backend.roster c.id = .ok entries :=
      (Backend.guarded_of_up hup _ _).trans hroster
    have hvalue : Request.fieldValue s.backend s.uploadRoot (some c) files s.disk
        ⟨"users", .roster, true⟩ = (.ok (.roster entries), s.disk) := by
      simp only [Request.fieldValue, hfetched]
    rw [Request.complete_of_field rfl, hvalue] at h
    cases h
  | submit =>
    rw [Request.complete_of_field rfl] at h
    rcases hvalue : Request.fieldValue s.backend s.uploadRoot course files s.disk
        ⟨"files", .files, true⟩ with ⟨g | value, d⟩
    · obtain ⟨hkind, -⟩ | ⟨-, hstore⟩ := Request.fieldValue_eq_error hvalue
      · cases hkind
      rw [hvalue] at h
      cases h
      rcases Request.locator_of_store (congrArg Prod.fst hstore) with hnone | hfailed
      · rw [Fault.isDefect, hnone]
        rfl
      · rw [Fault.isDefect, hfailed]
        rfl
    · obtain ⟨hkind, -⟩ | ⟨-, set, -, rfl⟩ := Request.fieldValue_eq_ok hvalue
      · cases hkind
      rw [hvalue] at h
      cases h

theorem hydrated_of_complete (e : Shipped) {files : List Upload} {r : e.Body}
    {course : Option Course} {assignment : Option Assignment} {identity : Option Identity}
    {s u : Server} {m : Materialized e.Body}
    (h : Request.complete e.kind files r course assignment identity s = (.ok m, u)) :
    e.Hydrated m.request := by
  cases e with
  | submit =>
    obtain ⟨set, _, -, rfl⟩ := complete_submitKind h
    exact ⟨set, rfl⟩
  | auth | password | roster | peek | history => trivial

end Shipped

/-! ## Handlers -/

theorem isDefect_auth {m : Materialized Unit} {i : Identity} (hidentity : m.identity = some i) :
    (Reply.ofResult ((auth m).map .ok)).isDefect = false := by
  simp only [auth, Materialized.needIdentity, hidentity]
  rfl

theorem isDefect_of_withNewPassword {m : Materialized PasswordChange} {i : Identity}
    (hidentity : m.identity = some i) {salt : String} {f : Fault}
    (h : withNewPassword m salt = .error f) : f.isDefect = false := by
  simp only [withNewPassword, Materialized.needIdentity, hidentity] at h
  split at h
  · cases h
    rfl
  · split at h
    · cases h
      rfl
    · split at h
      · cases h
        rfl
      · cases h

/-- A new password is written back, because nobody in a proper store has a blank email. -/
theorem isDefect_changePassword {seeded : Store} {s : Server} {m : Materialized PasswordChange}
    {i : Identity} (hidentity : m.identity = some i) (hvouched : Vouched seeded m.course i)
    (hproper : seeded.Proper) (hup : s.backend.down = []) :
    (Reply.ofResult ((changePassword m s).1.map .ok)).isDefect = false := by
  simp only [changePassword]
  split
  · next f hrefused => exact isDefect_of_withNewPassword hidentity hrefused
  · next a duplicate hnew =>
    obtain ⟨j, hj, hemail, -⟩ := withNewPassword_eq_ok hnew
    obtain rfl := Option.some.inj (hidentity.symm.trans hj)
    obtain ⟨b, hb, -⟩ := hvouched.exists_account (not_isRoot_of_withNewPassword hnew hidentity)
    have hblank := hproper.notBlank _ b hb
    rw [hproper.account _ b hb, ← hemail] at hblank
    have hput : s.backend.store.putAccount a =
        .ok { s.backend.store with accounts := s.backend.store.accounts.insert a.email a } :=
      if_neg hblank
    simp only [Backend.putAccount, Backend.guarded_of_up hup, hput]
    rfl

section Fetching

variable {R : Type} {b : Backend} (hup : b.down = [])
include hup

/-- The user that a request is about can be found out (`resolveTarget`), unless the sender may not
know. -/
theorem isDefect_of_resolveTarget {m : Materialized R} {i : Identity} {c : Course}
    (hidentity : m.identity = some i) (hcourse : m.course = some c) (named : String) {f : Fault}
    (h : resolveTarget b m named = .error f) : f.isDefect = false := by
  simp only [resolveTarget, Materialized.needIdentity, hidentity, Materialized.needCourse, hcourse,
    findTarget, Backend.account?, Backend.guarded_of_up hup] at h
  split at h
  · cases h
  · split at h
    · split at h
      · next herror => cases herror
      · cases h
      · cases h
    · cases h
      rfl

omit hup in
theorem isDefect_of_askedId {named : String} {key : SubmissionKey} {f : Fault}
    (h : askedId named key = .error f) : f.isDefect = false := by
  simp only [askedId] at h
  split at h
  · cases h
  · split at h
    · cases h
    · cases h
      rfl

theorem exists_of_submission? (key : SubmissionKey) (short : Option String) :
    ∃ found, b.submission? key short = .ok found ∧
      ∀ q, found = some q → q ∈ b.store.submissionsOf key := by
  refine ⟨_, Backend.guarded_of_up hup _ _, fun q hq => ?_⟩
  cases short with
  | none => exact List.mem_of_getLast? hq
  | some id => exact List.mem_of_find?_eq_some hq

omit hup in
theorem exists_writePeeked {found : Option Submission} (h : ∀ q, found = some q → q.grade.InYears) :
    ∃ v, (Peeked.mk true (found.map Submission.grade)).writeJson = .ok v := by
  cases found with
  | none => exact ⟨_, rfl⟩
  | some q =>
    obtain ⟨v, hv⟩ := (h q rfl).exists_writeJson
    simp only [Peeked.writeJson, Option.map_some, hv]
    exact ⟨_, rfl⟩

omit hup in
theorem exists_writeGrades {grades : List Grade} (h : ∀ g ∈ grades, g.InYears) :
    ∃ vs, writeGrades grades = .ok vs := by
  induction grades with
  | nil => exact ⟨[], rfl⟩
  | cons g rest ih =>
    obtain ⟨v, hv⟩ := (h g List.mem_cons_self).exists_writeJson
    obtain ⟨vs, hvs⟩ := ih fun q hq => h q (List.mem_cons_of_mem g hq)
    rw [writeGrades, hv, hvs]
    exact ⟨_, rfl⟩

theorem isDefect_peek (hsaved : ∀ key, ∀ q ∈ b.store.submissionsOf key, q.grade.InYears)
    {m : Materialized PeekRequest} {i : Identity} {c : Course} {a : Assignment}
    (hidentity : m.identity = some i) (hcourse : m.course = some c)
    (hassignment : m.assignment = some a) :
    (Reply.ofResult ((peek b m).map Peeked.writeJson)).isDefect = false := by
  simp only [peek, Materialized.needCourse, hcourse, Materialized.needAssignment, hassignment,
    bind, Except.bind]
  rcases ht : resolveTarget b m m.request.targetEmail with f | target
  · exact isDefect_of_resolveTarget hup hidentity hcourse _ ht
  · dsimp only
    split
    · rcases hid : askedId m.request.targetSubmission ⟨c.id, a.id, target.email⟩ with f | short
      · exact isDefect_of_askedId hid
      · obtain ⟨found, hfound, hmem⟩ := exists_of_submission? hup ⟨c.id, a.id, target.email⟩ short
        simp only [hfound, Fault.ofStore]
        exact Reply.isDefect_ofContent (exists_writePeeked fun q hq => hsaved _ q (hmem q hq))
    · exact Reply.isDefect_ofContent ⟨_, rfl⟩

theorem isDefect_history (hsaved : ∀ key, ∀ q ∈ b.store.submissionsOf key, q.grade.InYears)
    {m : Materialized HistoryRequest} {i : Identity} {c : Course} {a : Assignment}
    (hidentity : m.identity = some i) (hcourse : m.course = some c)
    (hassignment : m.assignment = some a) :
    (Reply.ofResult ((history b m).map History.writeJson)).isDefect = false := by
  simp only [history, Materialized.needCourse, hcourse, Materialized.needAssignment, hassignment,
    bind, Except.bind]
  rcases ht : resolveTarget b m m.request.targetEmail with f | target
  · exact isDefect_of_resolveTarget hup hidentity hcourse _ ht
  · dsimp only
    split
    · have hgrades : b.history ⟨c.id, a.id, target.email⟩ =
          .ok (b.store.history ⟨c.id, a.id, target.email⟩) := Backend.guarded_of_up hup _ _
      have hyears : ∀ g ∈ b.store.history ⟨c.id, a.id, target.email⟩, g.InYears := by
        intro g hg
        obtain ⟨q, hq, rfl⟩ := List.mem_map.1 hg
        exact hsaved _ q hq
      obtain ⟨vs, hvs⟩ := exists_writeGrades hyears
      simp only [hgrades, Fault.ofStore, Except.map, History.writeJson, hvs]
      exact Reply.isDefect_ofContent ⟨_, rfl⟩
    · exact Reply.isDefect_ofContent ⟨_, rfl⟩

end Fetching

namespace Shipped

variable {seeded : Store} {s : Server}

/-- A materialized request of an endpoint is answered at once without a defect, or goes to the
desk. -/
theorem isDefect_of_handle (e : Shipped) {m : Materialized e.Body}
    (hknown : (Phase.ready m).Known seeded e.kind.schema) (hhydrated : e.Hydrated m.request)
    (hproper : seeded.Proper) (hup : s.backend.down = [])
    (hsaved : ∀ key, ∀ q ∈ s.backend.store.submissionsOf key, q.grade.InYears)
    {reply : Reply} {u : Server} (h : e.handle m s = (.answer reply, u)) :
    reply.isDefect = false := by
  obtain ⟨hfound, i, hidentity, hvouched⟩ := hknown
  cases e with
  | auth =>
    cases h
    exact isDefect_auth hidentity
  | password =>
    cases h
    exact isDefect_changePassword hidentity hvouched hproper hup
  | roster =>
    cases h
    rfl
  | submit =>
    obtain ⟨c, hc, -⟩ := hfound.course rfl
    obtain ⟨a, ha⟩ := hfound.assignment rfl rfl
    obtain ⟨set, hset⟩ := hhydrated
    simp only [handle, ticket, Materialized.needIdentity, hidentity, Materialized.needCourse, hc,
      Materialized.needAssignment, ha, hset] at h
    cases h
  | peek =>
    cases h
    obtain ⟨c, hc, -⟩ := hfound.course rfl
    obtain ⟨a, ha⟩ := hfound.assignment rfl rfl
    exact isDefect_peek hup hsaved hidentity hc ha
  | history =>
    cases h
    obtain ⟨c, hc, -⟩ := hfound.course rfl
    obtain ⟨a, ha⟩ := hfound.assignment rfl rfl
    exact isDefect_history hup hsaved hidentity hc ha

end Shipped
end Endpoint
end Coursework
