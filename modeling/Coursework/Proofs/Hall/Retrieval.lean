import Coursework.Json.Access
import Coursework.Proofs.Endpoint.Login
import Coursework.Proofs.Endpoint.Lookup
import Coursework.Proofs.Hall.Answers
import Coursework.Proofs.Hall.Tickets
import Mathlib.Data.List.Nodup

/-!
# Looking up what was submitted

The answer to a submission shows its short id and its full id, and a request for one submission
takes either.  Whatever was answered is recorded (`Hall.Recorded`): it is saved under the key that
its full id names, and no other submission under the key has its short id.  What a request for one
submission finds is then a matter of what its id is read as.

A short id is read as it is.  A full id is so if and only if the email of the user is separable: an
email with `::` in it, or with a colon at its end, comes apart in the wrong places, and whoever has
one cannot use the full ids that they are given (`Hall.returned_ids`).
-/

set_option autoImplicit false

namespace Coursework

open Json

/-- A submission is found under its short id, as no other has it. -/
theorem Store.submission?_of_mem {s : Store} (hproper : s.Proper) {key : SubmissionKey}
    {q : Submission} (hq : q ∈ s.submissionsOf key) :
    s.submission? key q.grade.shortId = some q := by
  rcases hfound : s.submission? key q.grade.shortId with _ | r
  · have hnone := List.find?_eq_none.1 hfound q hq
    simp at hnone
  · have hsame : r.grade.shortId = q.grade.shortId := by simpa using List.find?_some hfound
    rw [List.inj_on_of_nodup_map (hproper.distinct key) (List.mem_of_find?_eq_some hfound) hq hsame]

def Grade.Shown (g : Grade) (info : Value) : Prop :=
  ∃ w, g.writeJson = .ok w ∧ info = w.canonical

theorem Grade.Shown.texts {g : Grade} {info : Value} (h : g.Shown info) :
    ["id", "course-id", "assignment-id", "user"].map (Access.text info) =
      [g.id, g.courseId, g.assignmentId, g.user] := by
  obtain ⟨w, hwrite, rfl⟩ := h
  rw [Grade.writeJson] at hwrite
  rcases hstart : g.startTime.writeRfc3339 with part | start
  · rw [hstart] at hwrite
    cases hwrite
  · rcases hfinish : g.endTime.writeRfc3339 with part | finish
    · rw [hstart, hfinish] at hwrite
      cases hwrite
    · rw [hstart, hfinish] at hwrite
      obtain rfl := Except.ok.inj hwrite
      simp [Value.canonical, Value.canonicalMembers, Value.field?_ofMembers, List.lookup_cons,
        Access.text, Access.text?, Access.get]

namespace Endpoint

/-! ## Answers -/

/-- What is answered to a submission that was graded, by `SubmitAnswer.writeJson`. -/
def gradedContent (info : Value) : Value :=
  .ofMembers [("grading-success", .bool true), ("rejected", .bool false), ("message", .string ""),
    ("grading-info", info)]

theorem info_gradedContent (info : Value) :
    (gradedContent info).field? "grading-info" = some info := by
  rw [gradedContent, Value.field?_ofMembers]
  rfl

/-- What is answered to a request for a submission that is found, by `Peeked.writeJson`. -/
def foundContent (info : Value) : Value :=
  .ofMembers [("found-user", .bool true), ("found-submission", .bool true), ("submission", info)]

theorem exists_graded_of_ofAnswer {a : Answer} {v : Value} (h : Reply.ofAnswer a = .content v)
    (hsuccess : v.field? "grading-success" = some (.bool true)) :
    ∃ g info, a = .ok (.graded g) ∧ g.Shown info ∧ v = gradedContent info := by
  rcases a with f | g | r
  · rw [Reply.ofAnswer] at h
    split at h <;> cases h
  · rcases hwrite : g.writeJson with part | w
    · rw [Reply.ofAnswer, SubmitAnswer.writeJson, hwrite] at h
      cases h
    · rw [Reply.ofAnswer, SubmitAnswer.writeJson, hwrite] at h
      exact ⟨g, w.canonical, rfl, ⟨w, hwrite, rfl⟩, (Reply.content.inj h).symm⟩
  · rw [← Reply.content.inj h, Value.canonical, Value.field?_ofMembers] at hsuccess
    simp [Value.canonicalMembers, Value.canonical, List.lookup_cons] at hsuccess

theorem Desk.exists_of_answer? {d : Desk} {r : Nat} {a : Answer} (h : d.answer? r = some a) :
    ∃ v, d.visits.find? r = some v ∧ v.stage.answer? = some a := by
  rw [answer?] at h
  split at h
  · next hv => exact ⟨_, hv, h⟩
  · cases h

theorem ofResult_found {g : Grade} {info : Value} (h : g.Shown info) :
    Reply.ofResult (.ok (Peeked.writeJson ⟨true, some g⟩)) = .content (foundContent info) := by
  obtain ⟨w, hwrite, rfl⟩ := h
  have hcontent : Peeked.writeJson ⟨true, some g⟩ = .ok (.object [("found-user", .bool true),
      ("found-submission", .bool true), ("submission", w)]) := by
    simp only [Peeked.writeJson, hwrite]
    rfl
  rw [hcontent, Reply.ofResult, Reply.ofContent, foundContent]
  rfl

/-! ## One look-up -/

/-- Somebody asks about the user of a grade: themselves, or they are staff and name the user.  The
trusted local caller can be named if there is an account with that email. -/
def MayAsk (seeded : Store) (g : Grade) (i : Identity) (named : String) : Prop :=
  (i.account.email = g.user ∧ (Text.trim named = "" ∨ Text.trim named = g.user)) ∨
    (i.hasRole .grader = true ∧ Text.trim named = g.user ∧
      (g.user = Account.rootEmail → seeded.Enrolls g.courseId g.user))

/-- A request that may run is for one submission to the assignment of a grade, by its user or by
staff that `MayAsk`. -/
structure AsksAbout (seeded : Store) (m : Materialized PeekRequest) (g : Grade) : Prop where
  course : ∃ c, m.course = some c ∧ c.id = g.courseId
  assignment : ∃ a, m.assignment = some a ∧ a.id = g.assignmentId
  sender : ∃ i, m.identity = some i ∧ MayAsk seeded g i m.request.targetEmail

/-- A text reads as such a request (`AsksAbout`), with credentials that are accepted. -/
def WrittenFor (seeded : Store) (b : Backend) (g : Grade) (raw : RawRequest) (r : PeekRequest) :
    Prop :=
  ∃ context a, decodeText? peekKind.decode raw.content = some (r, context) ∧
    Request.normalId context.courseId = g.courseId ∧
    Request.normalId context.assignmentId = g.assignmentId ∧ context.nonce = "" ∧
    Request.checkCredentials b context = .ok a ∧
    MayAsk seeded g ⟨a, a.courseRole? g.courseId, false⟩ r.targetEmail ∧
    (g.user = Account.rootEmail → seeded.Enrolls g.courseId g.user)

section Peek

variable {seeded : Store} {b : Backend} {m : Materialized PeekRequest} {g : Grade}
  (hasks : AsksAbout seeded m g) (hup : b.down = []) (hne : g.user ≠ "")
  (henrolled : g.user = Account.rootEmail ∨ seeded.Enrolls g.courseId g.user)
  (hsame : seeded.SamePrivileges b.store)
include hasks hup hne henrolled hsame

theorem resolveTarget_of_asksAbout :
    resolveTarget b m m.request.targetEmail = .ok ⟨g.user, true⟩ := by
  obtain ⟨c, hc, hcourse⟩ := hasks.course
  obtain ⟨i, hi, hsender⟩ := hasks.sender
  simp only [resolveTarget, Materialized.needIdentity, hi, Materialized.needCourse, hc, findTarget]
  by_cases hself : Text.trim m.request.targetEmail = "" ∨
      Text.trim m.request.targetEmail = i.account.email
  · rw [if_pos hself]
    rcases hsender with ⟨hself, -⟩ | ⟨hgrader, hnamed, -⟩
    · rw [hself]
    · rcases hself with hblank | hself
      · exact absurd (hnamed.symm.trans hblank) hne
      · rw [← hself, hnamed]
  · rw [if_neg hself]
    rcases hsender with ⟨hemail, hnamed⟩ | ⟨hgrader, hnamed, hroot⟩
    · exact absurd (hemail ▸ hnamed) hself
    · have hthere : seeded.Enrolls g.courseId g.user := henrolled.elim hroot id
      obtain ⟨a, role, ha, hrole, -⟩ := hthere.of_samePrivileges hsame
      rw [if_pos hgrader, hnamed, Backend.account?, Backend.guarded_of_up hup, ha, hcourse]
      simp only [hrole, Option.isSome_some]

/-- What is found is picked from what is kept under the key of the grade. -/
theorem peek_of_asksAbout :
    peek b m = (askedId m.request.targetSubmission ⟨g.courseId, g.assignmentId, g.user⟩).map
      fun asked => ⟨true, pick (b.store.history ⟨g.courseId, g.assignmentId, g.user⟩) asked⟩ := by
  obtain ⟨c, hc, hcourse⟩ := hasks.course
  obtain ⟨a, ha, hassignment⟩ := hasks.assignment
  rw [peek_eq hc ha (hup ▸ List.not_mem_nil),
    resolveTarget_of_asksAbout hasks hup hne henrolled hsame, hcourse, hassignment]
  rfl

end Peek

namespace Hall

/-! ## Runs -/

def Shows (h : Hall) (n : Nat) (info : Value) : Prop :=
  (h.step (.proceed n)).calls.find? n = some ⟨.peek, .answered (.content (foundContent info))⟩

/-- A request for one submission that may run is answered as its look-up is. -/
theorem step_of_ready_peek {h : Hall} {n : Nat} {m : Materialized PeekRequest}
    (hready : h.calls.find? n = some ⟨.peek, .ready m⟩) :
    (h.step (.proceed n)).calls.find? n =
      some ⟨.peek,
        .answered (Reply.ofResult ((peek h.server.backend m).map Peeked.writeJson))⟩ := by
  rw [step, proceed_of_find? hready]
  exact Table.find?_insert_self _ _ _

/-- A grade that was answered: it is saved under the key that its full id names, and its user has a
role in the course. -/
structure Recorded (seeded : Store) (h : Hall) (g : Grade) : Prop where
  saved : ∃ q ∈ h.desk.submissionsOf ⟨g.courseId, g.assignmentId, g.user⟩, q.grade = g
  number : ∃ k, g.shortId = Text.decimal k
  id : g.id = SubmissionId.full g.courseId g.assignmentId g.user g.shortId
  hasCourse : ∃ c, seeded.course? g.courseId = some c
  hasAssignment : ∃ a, seeded.assignment? g.courseId g.assignmentId = some a
  user : Text.trim g.user = g.user
  enrolled : g.user = Account.rootEmail ∨ seeded.Enrolls g.courseId g.user

theorem recorded_of_answer? {s : Server} (hproper : s.backend.store.Proper) {events : List Event}
    {r : Nat} {g : Grade}
    (hanswer : ((opened s).run events).desk.answer? r = some (.ok (.graded g))) :
    ((opened s).run events).Recorded s.backend.store g := by
  obtain ⟨v, hv, hstage⟩ := Desk.exists_of_answer? hanswer
  have hsaved : ((opened s).run events).desk.AnswersSaved :=
    desk_run_induction (fun d e hd => hd.step e) (Desk.answersSaved_opened s) events
  obtain ⟨start, finish, history, points, rfl, hmem⟩ := hsaved r v g hv hstage
  obtain ⟨hcourse, hassignment, hemail, henrolled⟩ := genuine_of_find? hproper hv
  obtain ⟨k, hnumber, -⟩ := nextShortId_spec start history
  exact ⟨⟨_, hmem, rfl⟩, ⟨k, hnumber⟩, rfl, ⟨_, hcourse⟩, ⟨_, hassignment⟩, hemail, henrolled⟩

namespace Recorded

variable {s : Server} {events : List Event} {g : Grade}
  (h : ((opened s).run events).Recorded s.backend.store g)
include h

theorem run (more : List Event) : ((opened s).run (events ++ more)).Recorded s.backend.store g := by
  obtain ⟨q, hq, hgrade⟩ := h.saved
  refine { h with saved := ⟨q, ?_, hgrade⟩ }
  rw [run_append]
  exact (submissionsOf_run_sublist _ more _).subset hq

theorem validateId_courseId (hproper : s.backend.store.Proper) :
    validateId "course" g.courseId = .ok () := by
  obtain ⟨c, hc⟩ := h.hasCourse
  rw [← hproper.course _ c hc]
  exact hproper.validCourse _ c hc

theorem validateId_assignmentId (hproper : s.backend.store.Proper) :
    validateId "assignment" g.assignmentId = .ok () := by
  obtain ⟨a, ha⟩ := h.hasAssignment
  rw [← (hproper.assignment _ _ a ha).2]
  exact validateId_of_validate (hproper.validAssignment _ _ a ha)

theorem askedId_shortId (key : SubmissionKey) : askedId g.shortId key = .ok (some g.shortId) := by
  obtain ⟨k, hnumber⟩ := h.number
  rw [hnumber, askedId, Text.trim_of_trimmed (SubmissionId.trimmed_decimal k),
    if_neg (SubmissionId.decimal_ne_empty k), SubmissionId.short_decimal]

/-- The full id names the submission if the email is `Separable`, and nothing otherwise. -/
theorem askedId_id (hproper : s.backend.store.Proper) :
    askedId g.id ⟨g.courseId, g.assignmentId, g.user⟩ = .ok (some g.shortId) ∧
        Text.Separable g.user.toList ∨
      (∃ f, askedId g.id ⟨g.courseId, g.assignmentId, g.user⟩ = .error f) ∧
        ¬ Text.Separable g.user.toList := by
  have hcourse := h.validateId_courseId hproper
  have hassignment := h.validateId_assignmentId hproper
  obtain ⟨k, hnumber⟩ := h.number
  rw [h.id, hnumber, askedId, SubmissionId.trim_full hcourse,
    if_neg (SubmissionId.full_ne_empty _ _ _ _)]
  by_cases hseparable : Text.Separable g.user.toList
  · exact .inl ⟨by rw [SubmissionId.short_full hcourse hassignment hseparable], hseparable⟩
  · refine .inr ⟨?_, hseparable⟩
    rcases hshort : SubmissionId.short
      (SubmissionId.full g.courseId g.assignmentId g.user (Text.decimal k)) g.courseId
        g.assignmentId
      g.user with e | short
    · exact ⟨_, rfl⟩
    · exact absurd (SubmissionId.separable_of_short_full hcourse hassignment hshort) hseparable

theorem user_ne_empty (hproper : s.backend.store.Proper) : g.user ≠ "" := by
  rcases h.enrolled with hroot | ⟨a, _, ha, -⟩
  · rw [hroot]
    decide
  · have hblank := hproper.notBlank _ a ha
    rw [hproper.account _ a ha, h.user] at hblank
    exact hblank

theorem resolve_of_names (hproper : s.backend.store.Proper) {b : Backend} (hup : b.down = [])
    (hsame : s.backend.store.SamePrivileges b.store) {context : Context}
    (hcourse : Request.normalId context.courseId = g.courseId)
    (hassignment : Request.normalId context.assignmentId = g.assignmentId) :
    ∃ c a, c.id = g.courseId ∧ a.id = g.assignmentId ∧
      Request.resolve fetchSchema context b = .ok (some c, some a) := by
  obtain ⟨c, hc⟩ := h.hasCourse
  obtain ⟨a, ha⟩ := h.hasAssignment
  have hcid := hproper.course _ c hc
  refine ⟨c, a, hcid, (hproper.assignment _ _ a ha).2, ?_⟩
  have hfoundCourse : Request.findCourse b context = .ok c := by
    rw [Request.findCourse, hcourse,
      if_neg (SubmissionId.ne_empty_of_validateId (h.validateId_courseId hproper)), Backend.course?,
      Backend.guarded_of_up hup, hsame.course, hc]
  have hfoundAssignment : Request.findAssignment b context c = .ok a := by
    rw [Request.findAssignment, hassignment,
      if_neg (SubmissionId.ne_empty_of_validateId (h.validateId_assignmentId hproper)),
      Backend.assignment?, Backend.guarded_of_up hup, hsame.assignment, hcid, ha]
  have hneeds : fetchSchema.needsCourse = true ∧ fetchSchema.needsAssignment = true := ⟨rfl, rfl⟩
  rw [Request.resolve, if_pos hneeds.1, hfoundCourse]
  simp only [hneeds.2, if_true, hfoundAssignment]

theorem hasRole_of_mayAsk {b : Backend} (hkeyed : b.store.Keyed)
    (hsame : s.backend.store.SamePrivileges b.store) {context : Context} {a : Account}
    (hcheck : Request.checkCredentials b context = .ok a) {named : String}
    (hmay : MayAsk s.backend.store g ⟨a, a.courseRole? g.courseId, false⟩ named)
    (hroot : g.user = Account.rootEmail → s.backend.store.Enrolls g.courseId g.user) :
    Identity.hasRole ⟨a, a.courseRole? g.courseId, false⟩ .student = true := by
  rw [Identity.hasRole_iff]
  rcases hmay with ⟨hself, -⟩ | ⟨hgrader, -⟩
  · have hthere : s.backend.store.Enrolls g.courseId g.user :=
      h.enrolled.elim hroot fun henrolled => henrolled
    obtain ⟨c, role, hc, hrole, hstudent⟩ := hthere.of_samePrivileges hsame
    obtain ⟨-, -, ha, -⟩ := Request.checkCredentials_eq_ok_iff.1 hcheck
    rw [← hkeyed.account _ a ha, hself, hc] at ha
    exact ⟨role, Option.some.inj ha ▸ hrole, hstudent⟩
  · obtain ⟨role, hrole, hmeets⟩ := (Identity.hasRole_iff _ _).1 hgrader
    rw [CourseRole.satisfies_iff] at hmeets
    exact ⟨role, hrole, (role.satisfies_iff .student).2 (Nat.le_trans (by decide) hmeets)⟩

theorem exists_materialize (hproper : s.backend.store.Proper) (hup : s.backend.down = [])
    {raw : RawRequest} {r : PeekRequest}
    (hwritten : WrittenFor s.backend.store ((opened s).run events).server.backend g raw r) :
    ∃ m, (Request.materialize peekKind raw ((opened s).run events).server).1 = .ok m ∧
      m.request = r ∧ AsksAbout s.backend.store m g := by
  have hdown : ((opened s).run events).server.backend.down = [] := (down_run _ events).trans hup
  have hsame := (kept_run hproper.toKeyed events).store
  have hkeyed := (proper_run (h := opened s) hproper events).toKeyed
  obtain ⟨context, a, hdecode, hcourse, hassignment, hnonce, hcheck, hmay, hroot⟩ := hwritten
  obtain ⟨c, a', hcid, haid, hresolve⟩ :=
    h.resolve_of_names hproper hdown hsame hcourse hassignment
  have hsender : Request.identify a (some c) false = ⟨a, a.courseRole? g.courseId, false⟩ := by
    rw [← hcid]
    rfl
  have hmeets := h.hasRole_of_mayAsk hkeyed hsame hcheck hmay hroot
  rw [← hsender] at hmay hmeets
  have hauthorize : Request.authorize peekKind.schema (Request.identify a (some c) false) =
      .ok () := by
    rw [Request.authorize_eq, if_pos]
    intro role hrole
    rw [List.mem_singleton.1 hrole]
    exact hmeets
  have hneeds : peekKind.schema.needsUser = true := rfl
  have hfields : peekKind.schema.fields = [] := rfl
  rw [Request.materialize_of_resolved hdecode rfl hresolve, Request.admitSender, if_pos hneeds,
    Request.authenticate, if_pos hnonce, hcheck]
  simp only [Except.map, hauthorize, Request.complete_of_no_fields hfields]
  exact ⟨_, rfl, rfl, ⟨c, rfl, hcid⟩, ⟨a', rfl, haid⟩, _, rfl, hmay⟩

/-- What a request about a recorded submission finds is what it asks for. -/
theorem step_of_asksAbout (hproper : s.backend.store.Proper) (hup : s.backend.down = []) {n : Nat}
    {m : Materialized PeekRequest}
    (hready : ((opened s).run events).calls.find? n = some ⟨.peek, .ready m⟩)
    (hasks : AsksAbout s.backend.store m g) {info : Value} (hshown : g.Shown info) :
    (askedId m.request.targetSubmission ⟨g.courseId, g.assignmentId, g.user⟩ =
        .ok (some g.shortId) → ((opened s).run events).Shows n info) ∧
      ∀ f, askedId m.request.targetSubmission ⟨g.courseId, g.assignmentId, g.user⟩ = .error f →
        ¬ ((opened s).run events).Shows n info := by
  have hdown : ((opened s).run events).server.backend.down = [] := (down_run _ events).trans hup
  have hpeek := peek_of_asksAbout hasks hdown (h.user_ne_empty hproper) h.enrolled
    (kept_run hproper.toKeyed events).store
  rw [Shows, step_of_ready_peek hready, hpeek]
  refine ⟨fun hasked => ?_, fun f hasked => ?_⟩
  · obtain ⟨q, hq, rfl⟩ := h.saved
    have hfound : ((opened s).run events).server.backend.store.submission?
        ⟨q.grade.courseId, q.grade.assignmentId, q.grade.user⟩ q.grade.shortId = some q :=
      Store.submission?_of_mem (proper_run (h := opened s) hproper events) hq
    rw [hasked, Except.map, pick, ← Store.submission?_map_grade, hfound, Except.map,
      Option.map_some, ofResult_found hshown]
  · rw [hasked]
    rintro ⟨⟩

end Recorded

/-- **Which of the ids that are answered lead back.**  Let requests come to the six endpoints of a
server whose store is proper and never down, and let their steps come in between each other in
whatever way.  When a submission was answered as graded, the answer shows a grade.  At any time from
then on,

* a request for one submission to that assignment, which its user writes or which staff write that
  name the user (`WrittenFor`), may run;
* when such a request runs, it is answered with that very grade if it asks by the short id;
* if it asks by the full id, it is answered so if and only if the email of the user is
  `Text.Separable`. -/
theorem returned_ids {s : Server} (hproper : s.backend.store.Proper) (hup : s.backend.down = [])
    {events : List Event} {n : Nat} {v : Value}
    (hanswered : ((opened s).run events).calls.find? n = some ⟨.submit, .answered (.content v)⟩)
    (hgraded : v.field? "grading-success" = some (.bool true)) :
    ∃ g info, v = gradedContent info ∧ g.Shown info ∧ Text.trim g.user = g.user ∧ ∀ more,
      (∀ raw r,
        WrittenFor s.backend.store ((opened s).run (events ++ more)).server.backend g raw r →
        ∃ m, (Request.materialize peekKind raw ((opened s).run (events ++ more)).server).1 = .ok m ∧
          m.request = r ∧ AsksAbout s.backend.store m g) ∧
      ∀ k m, ((opened s).run (events ++ more)).calls.find? k = some ⟨.peek, .ready m⟩ →
        AsksAbout s.backend.store m g →
        (m.request.targetSubmission = g.shortId →
          ((opened s).run (events ++ more)).Shows k info) ∧
        (m.request.targetSubmission = g.id →
          (((opened s).run (events ++ more)).Shows k info ↔ Text.Separable g.user.toList)) := by
  rcases exists_answer (onlySubmits_opened s) hanswered with hbefore | ⟨front, back, rfl, hanswers⟩
  · simp [opened] at hbefore
  · rcases hanswers with ⟨hready, hanswer⟩ | ⟨hvisiting, hanswer, hcontent⟩
    · next m =>
      rcases hticket : ticket m with f | t <;> simp [Shipped.handle, hticket] at hanswer
    · obtain ⟨g, info, rfl, hshown, rfl⟩ := exists_graded_of_ofAnswer hcontent hgraded
      have hrecorded := recorded_of_answer? hproper hanswer
      refine ⟨g, info, rfl, hshown, hrecorded.user, fun more => ?_⟩
      rw [List.append_assoc]
      have hlater := hrecorded.run (.proceed n :: back ++ more)
      refine ⟨fun raw r => hlater.exists_materialize hproper hup, fun k m hready hasks => ?_⟩
      obtain ⟨hshows, hrefused⟩ := hlater.step_of_asksAbout hproper hup hready hasks hshown
      refine ⟨fun hid => hshows (hid ▸ hlater.askedId_shortId _), fun hid => ?_⟩
      rcases hlater.askedId_id hproper with ⟨hasked, hseparable⟩ | ⟨⟨f, hasked⟩, hseparable⟩
      · exact iff_of_true (hshows (hid ▸ hasked)) hseparable
      · exact iff_of_false (hrefused f (hid ▸ hasked)) hseparable

/-! ## A student -/

def classSeed (email : String) : Seed :=
  ⟨Seed.small.courses, [{ kim email with courses := Table.empty.insert "cs1" .student }]⟩

def classServer (email : String) : Server :=
  .start ((classSeed email).apply .empty .foreseeable).store ⟨0, 0⟩ .foreseeable
    (.generous 0) .empty
    "/uploads"

def studentRequest (email named : String) (files : List Upload) : RawRequest :=
  ⟨(Value.object [("assignment-id", .string "hw1"), ("course-id", .string "cs1"),
    ("target-submission", .string named), ("user-email", .string email),
    ("user-pass", .string (String.ofList (List.replicate 64 'a')))]).text, files⟩

def handedIn (email : String) : List Event :=
  [.arrive .submit (studentRequest email "" [⟨"a.txt", [97]⟩]), .proceed 0, .proceed 0, .proceed 0,
      .proceed 0] ++
    [Move.proceed, .proceed, .proceed, .proceed, .receive (.ok ⟨10, 10⟩) 0, .proceed, .proceed,
      .proceed].map (.move 0) ++ [.proceed 0]

def lookedFor (email named : String) : List Event :=
  [.arrive .peek (studentRequest email named []), .proceed 1, .proceed 1, .proceed 1]

def outcome? (h : Hall) (n : Nat) : Option Value :=
  match h.calls.find? n with
  | some ⟨.submit, .answered (.content v)⟩ =>
    match v.field? "grading-success" with
    | some (.bool true) => v.field? "grading-info"
    | _ => none
  | _ => none

def identifiers? (h : Hall) (n : Nat) : Option (List String) :=
  (h.outcome? n).map fun info =>
    ["id", "course-id", "assignment-id", "user"].map (Access.text info)

def looksFor (h : Hall) (n : Nat) (email named : String) : Bool :=
  match h.calls.find? n with
  | some ⟨.peek, .ready m⟩ =>
    m.course.map Course.id = some "cs1" ∧ m.assignment.map Assignment.id = some "hw1" ∧
      m.identity.map (fun i => i.account.email) = some email ∧ m.request = ⟨"", named⟩
  | _ => false

def refusal? (h : Hall) (n : Nat) : Option Fault :=
  match h.calls.find? n with
  | some ⟨_, .answered (.refused f)⟩ => some f
  | _ => none

theorem exists_of_identifiers? {h : Hall} {n : Nat} {texts : List String}
    (hids : h.identifiers? n = some texts) :
    ∃ v, h.calls.find? n = some ⟨.submit, .answered (.content v)⟩ ∧
      v.field? "grading-success" = some (.bool true) ∧
      (v.field? "grading-info").map (fun info =>
        ["id", "course-id", "assignment-id", "user"].map (Access.text info)) = some texts := by
  rw [identifiers?, outcome?] at hids
  split at hids
  · next v hanswered =>
    split at hids
    · next hsuccess => exact ⟨v, hanswered, hsuccess, hids⟩
    · cases hids
  · cases hids

theorem exists_of_looksFor {h : Hall} {n : Nat} {email named : String}
    (hlooks : h.looksFor n email named = true) :
    ∃ m, h.calls.find? n = some ⟨.peek, .ready m⟩ ∧ m.course.map Course.id = some "cs1" ∧
      m.assignment.map Assignment.id = some "hw1" ∧
      m.identity.map (fun i => i.account.email) = some email ∧ m.request = ⟨"", named⟩ := by
  rw [looksFor] at hlooks
  split at hlooks
  · next m hready => exact ⟨m, hready, of_decide_eq_true hlooks⟩
  · cases hlooks

def answeredHall (email : String) : Hall :=
  (opened (classServer email)).run (handedIn email)

def lookingHall (email named : String) : Hall :=
  (opened (classServer email)).run (handedIn email ++ lookedFor email named)

/-- A student is graded, looks for the submission by its full id, and finds it. -/
theorem returned_ids_kim :
    ∃ (g : Grade) (info : Value),
      (answeredHall "kim@school.edu").calls.find? 0 =
          some ⟨.submit, .answered (.content (gradedContent info))⟩ ∧
        g.Shown info ∧ g.id = "cs1::hw1::kim@school.edu::0" ∧
        (lookingHall "kim@school.edu" "cs1::hw1::kim@school.edu::0").Shows 1 info := by
  have hruns : (answeredHall "kim@school.edu").identifiers? 0 =
        some ["cs1::hw1::kim@school.edu::0", "cs1", "hw1", "kim@school.edu"] ∧
      (lookingHall "kim@school.edu" "cs1::hw1::kim@school.edu::0").looksFor 1 "kim@school.edu"
        "cs1::hw1::kim@school.edu::0" = true := by
    decide +kernel
  obtain ⟨v, hanswered, hsuccess, htexts⟩ := exists_of_identifiers? hruns.1
  obtain ⟨m, hready, hcourse, hassignment, hsender, hrequest⟩ := exists_of_looksFor hruns.2
  have hproper : (classServer "kim@school.edu").backend.store.Proper :=
    (Seed.seeded_apply (classSeed "kim@school.edu") .foreseeable).toProper
  obtain ⟨g, info, rfl, hshown, -, hlookup⟩ := returned_ids hproper rfl hanswered hsuccess
  rw [info_gradedContent] at htexts
  have hids := hshown.texts.symm.trans (Option.some.inj htexts)
  simp only [List.cons.injEq, and_true] at hids
  obtain ⟨hid, hgcourse, hgassignment, huser⟩ := hids
  have hasks : AsksAbout (classServer "kim@school.edu").backend.store m g := by
    obtain ⟨c, hc, hcid⟩ := Option.map_eq_some_iff.1 hcourse
    obtain ⟨a, ha, haid⟩ := Option.map_eq_some_iff.1 hassignment
    obtain ⟨i, hi, hemail⟩ := Option.map_eq_some_iff.1 hsender
    refine ⟨⟨c, hc, hcid.trans hgcourse.symm⟩, ⟨a, ha, haid.trans hgassignment.symm⟩,
      i, hi, .inl ⟨hemail.trans huser.symm, .inl ?_⟩⟩
    rw [hrequest]
    rfl
  have hseparable : Text.Separable g.user.toList := by
    rw [huser]
    decide +kernel
  refine ⟨g, info, hanswered, hshown, hid, ?_⟩
  obtain ⟨-, hfinds⟩ := hlookup (lookedFor "kim@school.edu" "cs1::hw1::kim@school.edu::0")
  exact ((hfinds 1 m hready hasks).2 (by rw [hrequest, hid])).2 hseparable

/-- A student with two colons in the email is graded, and is refused what the answer calls the
submission. -/
theorem returned_ids_colons :
    (answeredHall "a::b").identifiers? 0 = some ["cs1::hw1::a::b::0", "cs1", "hw1", "a::b"] ∧
      (lookingHall "a::b" "cs1::hw1::a::b::0").looksFor 1 "a::b" "cs1::hw1::a::b::0" = true ∧
      ((lookingHall "a::b" "cs1::hw1::a::b::0").step (.proceed 1)).refusal? 1 =
        some (.invalid ⟨.submissionId, "malformed submission id 'cs1::hw1::a::b::0'"⟩) := by
  decide +kernel

end Hall
end Endpoint
end Coursework
