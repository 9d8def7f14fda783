import Coursework.Endpoint.Submit
import Coursework.Proofs.Desk.Basic
import Coursework.Proofs.Request.Stages
import Coursework.Proofs.Uploads

/-!
# Submitting is all or nothing

A request to submit has seven ways to end: three reasons for a refusal, a history that cannot be
read, a grader that fails, a store that does not save, and success.  `submit_all_or_nothing` says
what each of them leaves in the store, with the grader, among the locks and on the disk.

The store has gained a submission (`Store.Gained`) exactly when the answer says so, and the
submission is the one that the answer shows.
-/

set_option autoImplicit false

namespace Coursework

open Json

/-! ## The locks after a release -/

theorem LockTable.isKnown_release {ρ : Type} [DecidableEq ρ] (t : LockTable ρ) (r : ρ) :
    (t.release r).isKnown r = false := by
  have hleave : (t.leave r).isKnown r = false := by
    rw [isKnown, Table.contains, leave]
    cases hr : t.claims.find? r with
    | none => simp [hr]
    | some c => simp [Table.find?_erase]
  rw [release]
  cases hr : t.claims.find? r with
  | none => simp [isKnown, Table.contains, hr]
  | some c =>
    cases hphase : c.phase with
    | waiting => simpa only [hphase] using hleave
    | held =>
      simp only [hphase]
      rwa [isKnown, claims_prune]

namespace Endpoint

/-! ## The request -/

/-- The last stage keeps the uploaded files, and that is all it fills in. -/
theorem complete_submitKind {files : List Upload} {r : SubmitRequest} {course : Option Course}
    {assignment : Option Assignment} {identity : Option Identity} {s u : Server}
    {m : Materialized SubmitRequest}
    (h : Request.complete submitKind files r course assignment identity s = (.ok m, u)) :
    ∃ set d, UploadSet.store s.disk s.uploadRoot files = (.ok set, d) ∧
      m = ⟨{ r with files := some set }, course, assignment, identity, [set]⟩ := by
  rw [Request.complete_of_field rfl] at h
  rcases hvalue : Request.fieldValue s.backend s.uploadRoot course files s.disk
      ⟨"files", .files, true⟩ with ⟨f | value, d⟩
  · rw [hvalue] at h
    cases h
  obtain ⟨hkind, -⟩ | ⟨-, set, hstore, rfl⟩ := Request.fieldValue_eq_ok hvalue
  · cases hkind
  · rw [hvalue] at h
    cases h
    exact ⟨set, d, hstore, rfl⟩

/-- A materialized request has all that submitting depends on (`Ticket`), and its files are the one
upload that was made for it. -/
theorem ticket_of_materialize {raw : RawRequest} {s : Server} {m : Materialized SubmitRequest}
    (h : (Request.materialize submitKind raw s).1 = .ok m) :
    ∃ t, ticket m = .ok t ∧ m.uploads = [t.files] ∧
      ∃ d e, UploadSet.store d s.uploadRoot raw.files = (.ok t.files, e) := by
  obtain ⟨r, context, nonces, -, -, hresolve, hadmit, hcomplete⟩ :=
    Request.materialize_eq_ok (Prod.ext h rfl)
  obtain ⟨set, d, hstore, hm⟩ := complete_submitKind hcomplete
  obtain ⟨i, hi, -⟩ := Request.admitSender_eq_ok hadmit rfl
  have hcourse : submitKind.schema.needsCourse = true := rfl
  have hassignment : submitKind.schema.needsAssignment = true := rfl
  simp only [Request.resolve, hcourse, hassignment, if_true] at hresolve
  split at hresolve
  · cases hresolve
  · next c _ =>
    split at hresolve
    · cases hresolve
    · next a _ =>
      obtain ⟨hc, ha⟩ := Prod.mk.inj (Except.ok.inj hresolve)
      refine ⟨⟨c, a, i.account.email, i.courseRole.getD .other, r.message, r.allowLate, set⟩,
        ?_, ?_, s.disk, d, hstore⟩
      · rw [hm]
        simp only [ticket, Materialized.needIdentity, Materialized.needCourse,
          Materialized.needAssignment, hi, ← hc, ← ha]
      · rw [hm]

/-! ## How it ends -/

/-- A server when a request to submit was answered, as `submitRoute` leaves it: the uploaded files
are gone. -/
def answered (m : Materialized SubmitRequest) (s : Server) : Server :=
  { (submit m s).2 with disk := UploadSet.discardAll m.uploads (submit m s).2.disk }

theorem submitRoute_call {raw : RawRequest} {s u : Server} {m : Materialized SubmitRequest}
    (h : Request.materialize submitKind raw s = (.ok m, u)) :
    submitRoute.call raw s = (Reply.ofAnswer (submit m u).1, answered m u) := by
  simp only [submitRoute, Route.of, Route.run, h, answered]

/-- What the store holds afterwards, by the answer.  After a grade it has `Gained` the submission
that the answer shows, and after a refusal or a fault it is as it was; the handler breaks down only
after admission, where no number is left for a short id (`hasNext`). -/
def Settled (t : Ticket) (before after : Server) : Except Fault SubmitAnswer → Prop
  | .ok (.graded g) =>
    ∃ history r, before.backend.history t.key = .ok history ∧
      Admission.evaluate (t.attempt g.startTime history) = .ok () ∧ g.startTime = before.clock ∧
      before.backend.store.Gained after.backend.store r ∧ Store.keyOf r = t.key ∧
      r.grade = g ∧ r.files = t.files.filenames ∧
      (SubmitAnswer.graded g).writeJson = g.writeJson.map fun info =>
        .object [("grading-success", .bool true), ("rejected", .bool false),
          ("message", .string ""), ("grading-info", info)]
  | .ok (.rejected r) =>
    ∃ history, before.backend.history t.key = .ok history ∧
      Admission.evaluate (t.attempt before.clock history) = .error r ∧
      after.backend = before.backend ∧
      (SubmitAnswer.rejected r).writeJson = .ok (.object [("grading-success", .bool false),
        ("rejected", .bool true), ("message", .string r.message), ("grading-info", .null)])
  | .error f =>
    after.backend = before.backend ∧ ((∃ e, f = .store e) ∨ (∃ why, f = .gradingFailed why) ∨
      f = .brokenDown ∧ ∃ history, before.backend.history t.key = .ok history ∧
        hasNext before.clock history = false)

/-- A submission is admitted on the history that there is, at the time that the clock shows. -/
def Admitted (t : Ticket) (s : Server) : Prop :=
  ∃ history, s.backend.history t.key = .ok history ∧
    Admission.evaluate (t.attempt s.clock history) = .ok ()

/-- The grader has got the `job` of a submission that was `Admitted`, and of no other. -/
structure GradedOnce (t : Ticket) (before after : Server) : Prop where
  admitted : Admitted t before → after.jobs = before.jobs ++ [job t before.disk]
  refused : ¬ Admitted t before → after.jobs = before.jobs

variable {t : Ticket} {before s : Server}

theorem settled_record {history : List Grade}
    (hhistory : before.backend.history t.key = .ok history)
    (hjudge : judge t before.clock history = .ok ()) (hbackend : s.backend = before.backend) :
    Settled t before (record t before.clock history s).2 (record t before.clock history s).1 := by
  cases hgrade : s.grader.grade (job t s.disk) with
  | error e =>
    simp only [record, Server.grade, hgrade]
    exact ⟨hbackend, .inr (.inl ⟨_, rfl⟩)⟩
  | ok points =>
    simp only [record, Server.grade, hgrade]
    split
    · next hfailed =>
      obtain hstore | ⟨hbroken, hnext⟩ := saveGraded_eq_error hfailed
      · exact ⟨hbackend, .inl hstore⟩
      · exact ⟨hbackend, .inr (.inr ⟨hbroken, history, hhistory, hnext⟩)⟩
    · next backend hsave =>
      have hgained := Store.gained_save (Backend.save_eq_ok (saveGraded_eq_ok hsave))
      have hstore : (s.advance (s.grader.nanos (job t s.disk))).backend.store =
          before.backend.store :=
        congrArg Backend.store hbackend
      rw [hstore] at hgained
      exact ⟨history, _, hhistory, hjudge, rfl, hgained, rfl, rfl, rfl, rfl⟩

theorem settled_submitLocked (t : Ticket) (s : Server) :
    Settled t s (submitLocked t s).2 (submitLocked t s).1 := by
  rw [submitLocked]
  cases hhistory : s.backend.history t.key with
  | error e => exact ⟨rfl, .inl ⟨e, rfl⟩⟩
  | ok history =>
    cases hjudge : judge t s.clock history with
    | error r =>
      simp only [hjudge]
      exact ⟨history, hhistory, hjudge, rfl, rfl⟩
    | ok _ =>
      simp only [hjudge]
      exact settled_record hhistory hjudge rfl

theorem jobs_record (t : Ticket) (start : Time.Moment) (history : List Grade) (s : Server) :
    (record t start history s).2.jobs = s.jobs ++ [job t s.disk] := by
  rw [record]
  cases hgrade : s.grader.grade (job t s.disk) with
  | error e => simp only [Server.grade, hgrade]
  | ok points =>
    simp only [Server.grade, hgrade]
    split <;> rfl

theorem gradedOnce_submitLocked (t : Ticket) (s : Server) :
    GradedOnce t s (submitLocked t s).2 := by
  rw [submitLocked]
  cases hhistory : s.backend.history t.key with
  | error e =>
    refine ⟨fun hadmitted => ?_, fun _ => rfl⟩
    obtain ⟨_, hread, -⟩ := hadmitted
    cases hhistory.symm.trans hread
  | ok history =>
    cases hjudge : judge t s.clock history with
    | error r =>
      simp only [hjudge]
      refine ⟨fun hadmitted => ?_, fun _ => rfl⟩
      obtain ⟨_, hread, hpasses⟩ := hadmitted
      cases hhistory.symm.trans hread
      cases hjudge.symm.trans hpasses
    | ok _ =>
      simp only [hjudge]
      exact ⟨fun _ => jobs_record t s.clock history _,
        fun hnot => absurd ⟨history, hhistory, hjudge⟩ hnot⟩

/-- **Submitting is all or nothing.**  Whatever is in the store and whatever else goes on, once a
materialized request was answered

* the store has gained the submission that the answer shows if the work was graded, and is as it was
  if the work was refused or something failed (`Settled`);
* the grader was asked once if the work was admitted, and not at all otherwise (`GradedOnce`);
* the directory of the upload is gone, and the request has no lock and waits for none. -/
theorem submit_all_or_nothing {raw : RawRequest} {s₀ : Server} {m : Materialized SubmitRequest}
    (hm : (Request.materialize submitKind raw s₀).1 = .ok m) (s : Server) :
    ∃ t, ticket m = .ok t ∧
      t.files.filenames.map some = raw.files.map (fun u => UploadSet.keptName? u.filename) ∧
      Settled t s (answered m s) (submit m s).1 ∧ GradedOnce t s (answered m s) ∧
      (answered m s).disk.holds t.files.directory = false ∧
      (answered m s).locks.isKnown s.nextRequest = false := by
  obtain ⟨t, ht, huploads, d, e, hstore⟩ := ticket_of_materialize hm
  have hsubmit : submit m s = ((submitLocked t (takeLock t s).2).1,
      { (submitLocked t (takeLock t s).2).2 with
        locks := (submitLocked t (takeLock t s).2).2.locks.release s.nextRequest }) := by
    simp only [submit, ht]
    rfl
  refine ⟨t, ht, (UploadSet.store_eq_ok hstore).2, ?_, ?_, ?_, ?_⟩
  · have hsettled := settled_submitLocked t (takeLock t s).2
    rw [answered, hsubmit]
    cases hanswer : (submitLocked t (takeLock t s).2).1 with
    | error f => exact hanswer ▸ hsettled
    | ok answer => cases answer <;> exact hanswer ▸ hsettled
  · have honce := gradedOnce_submitLocked t (takeLock t s).2
    rw [answered, hsubmit]
    exact ⟨honce.admitted, honce.refused⟩
  · rw [answered, huploads]
    exact UploadSet.holds_discard hstore _
  · rw [answered, hsubmit]
    exact LockTable.isKnown_release _ _

def homeworkServer : Server :=
  { Server.start
      { Store.empty with
        courses := Table.empty.insert "cs1" ⟨"cs1", ""⟩
        assignments := Table.empty.insert ("cs1", "hw1") ⟨"hw1", "cs1", "", none, 10, none, none⟩ }
      ⟨0, 0⟩ .foreseeable (.generous 5) .empty "/uploads" with
    nonces := ⟨["n"]⟩ }

def homework : RawRequest :=
  ⟨"\x7b\"course-id\": \"cs1\", \"assignment-id\": \"hw1\", \"root-user-nonce\": \"n\"\x7d",
    [⟨"work/a.txt", [104, 105]⟩]⟩

/-- The file is graded, the outcome is saved with the name that the file was kept under, and the
directory is gone. -/
theorem submit_all_or_nothing_graded :
    ∃ m t g, (Request.materialize submitKind homework homeworkServer).1 = .ok m ∧
      ticket m = .ok t ∧ (submit m homeworkServer).1 = .ok (.graded g) ∧
      homeworkServer.backend.store.Gained (answered m homeworkServer).backend.store ⟨g, ["a.txt"]⟩ ∧
      (answered m homeworkServer).disk.holds t.files.directory = false := by
  have hpassed : ∃ m, (Request.materialize submitKind homework homeworkServer).1 = .ok m ∧
      ∃ g, (submit m homeworkServer).1 = .ok (.graded g) := ⟨_, rfl, _, rfl⟩
  obtain ⟨m, hm, g, hg⟩ := hpassed
  obtain ⟨t, ht, hnames, hsettled, -, hgone, -⟩ := submit_all_or_nothing hm homeworkServer
  have hkept : t.files.filenames = ["a.txt"] := by
    have hname : UploadSet.keptName? "work/a.txt" = some "a.txt" := by decide +kernel
    have hmap : t.files.filenames.map some = ["a.txt"].map some := by
      rw [hnames]
      exact congrArg (fun name => [name]) hname
    exact List.map_inj_right (fun _ _ => Option.some.inj) |>.1 hmap
  rw [hg] at hsettled
  obtain ⟨-, ⟨grade, files⟩, -, -, -, hgained, -, hgrade, hfiles, -⟩ := hsettled
  cases hgrade
  cases hfiles.trans hkept
  exact ⟨m, t, grade, hm, ht, hg, hgained, hgone⟩

end Endpoint
end Coursework
