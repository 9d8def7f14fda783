import Coursework.Proofs.Request.Merged
import Coursework.Proofs.Submit
import Coursework.Proofs.Uploads.Discarded

/-!
# The traces of a request

Of all that requests share, a request that is materialized can change the live nonces and the disk,
and each at one stage only.  `Request.materialize_traces` says exactly what it does to them,
wherever it fails.

The stages before the sender's look at nothing but the store (`Request.Reaches`).  A request that
gets so far shows its nonce, if it has one, and whatever comes later the nonce is spent
(`Request.nonces_admitSender_eq`).  Only then, and only for a sender who may, are the disk and the
files of the request looked at (`Request.Authorised`); what was stored is discarded when a field
cannot be filled (`Request.cleared_complete`).
-/

set_option autoImplicit false

namespace Coursework

namespace Locator

/-- The locators -001 and -010 to -013: a request is not read, or its course or assignment is not
found. -/
def beforeSender : List Locator :=
  [malformedRequest, missingCourseId, courseNotFound, missingAssignmentId, assignmentNotFound]

/-- The locators of a sender that is not admitted (`admitSender`), or that the store does not
find. -/
def atSender : List Locator :=
  [missingUserEmail, userNotFound, badCredentials, internal, badNonce, permissionDenied]

/-- The locators -020, -313, -315 and -316: the sender may not, or a field cannot be filled. -/
def afterSender : List Locator :=
  [permissionDenied, rosterFetchFailed, fileStoreFailed, noFiles]

example : beforeSender.map code = ["-001", "-010", "-011", "-012", "-013"] ∧
    afterSender.map code = ["-020", "-313", "-315", "-316"] := ⟨rfl, rfl⟩

end Locator

namespace Request

open Json
open UploadSet (Cleared Held cleared_of_asBefore)

variable {R : Type}

/-! ## How far a request gets -/

/-- The request is read, and shows this context; the course and the assignment that its schema asks
for are found. -/
def Reaches (kind : RequestKind R) (raw : RawRequest) (s : Server) (context : Context)
    (course : Option Course) : Prop :=
  ∃ r assignment, decodeText? kind.decode raw.content = some (r, context) ∧
    resolve kind.schema context s.backend = .ok (course, assignment)

/-- The request gets as far as to show this nonce (`Reaches`). -/
def Presents (kind : RequestKind R) (raw : RawRequest) (s : Server) (nonce : String) : Prop :=
  nonce ≠ "" ∧ ∃ context course, Reaches kind raw s context course ∧ context.nonce = nonce

def Authorised (kind : RequestKind R) (raw : RawRequest) (s : Server) : Prop :=
  ∃ context course i left, Reaches kind raw s context course ∧
    authenticate s.backend s.nonces context course = (.ok i, left) ∧
    authorize kind.schema i = .ok ()

theorem Reaches.unique {kind : RequestKind R} {raw : RawRequest} {s : Server} {a b : Context}
    {c d : Option Course} (h : Reaches kind raw s a c) (h' : Reaches kind raw s b d) :
    a = b ∧ c = d := by
  obtain ⟨r, assignment, hdecode, hresolve⟩ := h
  obtain ⟨r', assignment', hdecode', hresolve'⟩ := h'
  cases hdecode.symm.trans hdecode'
  cases hresolve.symm.trans hresolve'
  exact ⟨rfl, rfl⟩

theorem Reaches.presents_iff {kind : RequestKind R} {raw : RawRequest} {s : Server}
    {context : Context} {course : Option Course} (h : Reaches kind raw s context course)
    (nonce : String) : Presents kind raw s nonce ↔ nonce ≠ "" ∧ context.nonce = nonce := by
  constructor
  · rintro ⟨hnonce, context', course', h', hshown⟩
    obtain ⟨rfl, -⟩ := h.unique h'
    exact ⟨hnonce, hshown⟩
  · rintro ⟨hnonce, hshown⟩
    exact ⟨hnonce, context, course, h, hshown⟩

/-! ## What the stages fail with -/

theorem locator_of_findCourse {b : Backend} {context : Context} {f : Fault}
    (h : findCourse b context = .error f) :
    f.locator = .missingCourseId ∨ f.locator = .courseNotFound ∨ f.locator = .internal := by
  simp only [findCourse] at h
  split at h
  · cases h
    exact .inl rfl
  · split at h <;> cases h
    · exact .inr (.inr rfl)
    · exact .inr (.inl rfl)

theorem locator_of_findAssignment {b : Backend} {context : Context} {c : Course} {f : Fault}
    (h : findAssignment b context c = .error f) :
    f.locator = .missingAssignmentId ∨ f.locator = .assignmentNotFound ∨ f.locator = .internal := by
  simp only [findAssignment] at h
  split at h
  · cases h
    exact .inl rfl
  · split at h <;> cases h
    · exact .inr (.inr rfl)
    · exact .inr (.inl rfl)

/-- Without its course and assignment a request fails for a reason that comes before its sender, or
because the store refuses. -/
theorem locator_of_resolve {schema : Schema} {context : Context} {b : Backend} {f : Fault}
    (h : resolve schema context b = .error f) :
    f.locator ∈ Locator.beforeSender ∨ f.locator = .internal := by
  rw [resolve] at h
  split at h
  · split at h
    · next hcourse =>
      cases h
      rcases locator_of_findCourse hcourse with h | h | h <;> simp [h, Locator.beforeSender]
    · split at h
      · split at h
        · next hassignment =>
          cases h
          rcases locator_of_findAssignment hassignment with h | h | h <;>
            simp [h, Locator.beforeSender]
        · cases h
      · cases h
  · cases h

theorem locator_of_checkCredentials {b : Backend} {context : Context} {f : Fault}
    (h : checkCredentials b context = .error f) :
    f.locator ∈ [.missingUserEmail, .userNotFound, .badCredentials, .internal] := by
  simp only [checkCredentials] at h
  split at h
  · cases h
    simp [Fault.locator]
  · split at h
    · cases h
      simp [Fault.locator]
    · cases h
      simp [Fault.locator]
    · split at h <;> cases h
      simp [Fault.locator]

theorem locator_of_admitSender {schema : Schema} {b : Backend} {nonces : Nonces}
    {context : Context} {course : Option Course} {f : Fault}
    (h : (admitSender schema b nonces context course).1 = .error f) :
    f.locator ∈ Locator.atSender := by
  rw [admitSender] at h
  split at h
  · split at h
    · next hauthenticate =>
      cases h
      simp only [authenticate] at hauthenticate
      split at hauthenticate
      · rcases hcheck : checkCredentials b context with f' | a
        · rw [hcheck] at hauthenticate
          cases hauthenticate
          exact List.mem_append_left [_, _] (locator_of_checkCredentials hcheck)
        · rw [hcheck] at hauthenticate
          cases hauthenticate
      · split at hauthenticate <;> cases hauthenticate
        simp [Fault.locator, Locator.atSender]
    · split at h
      · next hauthorize =>
        cases h
        rw [authorize_eq] at hauthorize
        split at hauthorize <;> cases hauthorize
        simp [Fault.locator, Locator.atSender]
      · cases h
  · cases h

/-! ## Three ways to go -/

/-- A request gets as far as its sender (`Reaches`), or it comes to the same whatever files it has
and changes nothing. -/
theorem reaches_or_early {kind : RequestKind R} (hvalid : kind.schema.validate = .ok ())
    (raw : RawRequest) (s : Server) :
    (∃ context course, Reaches kind raw s context course) ∨
      (∀ context course, ¬ Reaches kind raw s context course) ∧
        ∃ f, (f.locator ∈ Locator.beforeSender ∨ f.locator = .internal) ∧
          ∀ files d, materialize kind ⟨raw.content, files⟩ { s with disk := d } =
            (.error f, { s with disk := d }) := by
  rcases hdecode : decodeText? kind.decode raw.content with _ | ⟨r, context⟩
  · refine .inr ⟨?_, unread kind raw.content s, .inl List.mem_cons_self,
      fun files d => materialize_of_unread hdecode files { s with disk := d }⟩
    rintro context course ⟨r, assignment, hread, -⟩
    cases hdecode.symm.trans hread
  · rcases hresolve : resolve kind.schema context s.backend with f | ⟨course, assignment⟩
    · refine .inr ⟨?_, f, locator_of_resolve hresolve, fun files d => by
        simp only [materialize, hdecode, hvalid, hresolve]⟩
      rintro context' course ⟨r', assignment, hread, hfound⟩
      cases hdecode.symm.trans hread
      cases hresolve.symm.trans hfound
    · exact .inl ⟨context, course, r, assignment, hdecode, hresolve⟩

/-- A request whose sender is turned away comes to the same whatever files it has, and changes
nothing but the nonces. -/
theorem materialize_of_refused {kind : RequestKind R} (hvalid : kind.schema.validate = .ok ())
    {raw : RawRequest} {s : Server} {context : Context} {course : Option Course}
    (h : Reaches kind raw s context course) {f : Fault} {left : Nonces}
    (hsender : admitSender kind.schema s.backend s.nonces context course = (.error f, left))
    (files : List Upload) (d : Disk) :
    materialize kind ⟨raw.content, files⟩ { s with disk := d } =
      (.error f, { s with nonces := left, disk := d }) := by
  obtain ⟨r, assignment, hdecode, hresolve⟩ := h
  simp only [materialize, hdecode, hvalid, hresolve, hsender]

theorem materialize_of_admitted {kind : RequestKind R} (hvalid : kind.schema.validate = .ok ())
    {raw : RawRequest} {s : Server} {context : Context} {course : Option Course}
    (h : Reaches kind raw s context course) {identity : Option Identity} {left : Nonces}
    (hsender : admitSender kind.schema s.backend s.nonces context course = (.ok identity, left)) :
    ∃ r assignment, materialize kind raw s =
      complete kind raw.files r course assignment identity { s with nonces := left } := by
  obtain ⟨r, assignment, hdecode, hresolve⟩ := h
  exact ⟨r, assignment, by rw [materialize_of_resolved hdecode hvalid hresolve, hsender]⟩

theorem authorised_of_admitSender {kind : RequestKind R} (huser : kind.schema.needsUser = true)
    {raw : RawRequest} {s : Server} {context : Context} {course : Option Course}
    (h : Reaches kind raw s context course) {identity : Option Identity} {left : Nonces}
    (hsender : admitSender kind.schema s.backend s.nonces context course = (.ok identity, left)) :
    Authorised kind raw s := by
  obtain ⟨i, -, hauthenticate, hauthorize⟩ := admitSender_eq_ok hsender huser
  exact ⟨context, course, i, left, h, hauthenticate, hauthorize⟩

/-! ## The nonces -/

theorem nonces_authenticate_eq (b : Backend) (nonces : Nonces) (context : Context)
    (course : Option Course) : (authenticate b nonces context course).2 =
      if context.nonce = "" then nonces else nonces.remove context.nonce := by
  rw [authenticate]
  split
  · rfl
  · next hnonce =>
    rw [Nonces.consume, if_neg hnonce]
    cases nonces.contains context.nonce <;> rfl

/-- Where a sender is asked for, the nonce that is shown is spent, whether they are admitted or
not. -/
theorem nonces_admitSender_eq {schema : Schema} (huser : schema.needsUser = true) (b : Backend)
    (nonces : Nonces) (context : Context) (course : Option Course) :
    (admitSender schema b nonces context course).2 =
      if context.nonce = "" then nonces else nonces.remove context.nonce := by
  rw [← nonces_authenticate_eq b nonces context course, admitSender, if_pos huser]
  split
  · next hauthenticate => rw [hauthenticate]
  · next hauthenticate =>
    rw [hauthenticate]
    split <;> rfl

/-- What is left of the nonces when a request got as far as its sender. -/
theorem nonces_of_reaches {kind : RequestKind R} (hvalid : kind.schema.validate = .ok ())
    (huser : kind.schema.needsUser = true) {raw : RawRequest} {s : Server} {context : Context}
    {course : Option Course} (h : Reaches kind raw s context course) :
    (materialize kind raw s).2.nonces =
      if context.nonce = "" then s.nonces else s.nonces.remove context.nonce := by
  rw [← nonces_admitSender_eq huser s.backend s.nonces context course]
  rcases hsender : admitSender kind.schema s.backend s.nonces context course with
    ⟨f | identity, left⟩
  · exact congrArg (fun o => o.2.nonces) (materialize_of_refused hvalid h hsender raw.files s.disk)
  · obtain ⟨r, assignment, hcomplete⟩ := materialize_of_admitted hvalid h hsender
    rw [hcomplete, nonces_complete]

/-- The live nonces are those that were live, without the one that is shown. -/
theorem contains_nonces_materialize {kind : RequestKind R} (hvalid : kind.schema.validate = .ok ())
    (huser : kind.schema.needsUser = true) (raw : RawRequest) (s : Server) (nonce : String) :
    (materialize kind raw s).2.nonces.contains nonce = true ↔
      s.nonces.contains nonce = true ∧ ¬ Presents kind raw s nonce := by
  rcases reaches_or_early hvalid raw s with ⟨context, course, h⟩ | ⟨hnot, f, -, hmaterialize⟩
  · rw [nonces_of_reaches hvalid huser h, h.presents_iff]
    split
    · next hempty =>
      refine ⟨fun hlive => ⟨hlive, ?_⟩, fun hlive => hlive.1⟩
      rintro ⟨hnonce, rfl⟩
      exact hnonce hempty
    · next hnonempty =>
      rw [Nonces.contains_remove]
      constructor
      · rintro ⟨hother, hlive⟩
        exact ⟨hlive, fun hshown => hother hshown.2.symm⟩
      · rintro ⟨hlive, hother⟩
        refine ⟨?_, hlive⟩
        rintro rfl
        exact hother ⟨hnonempty, rfl⟩
  · have hsame : materialize kind raw s = (.error f, s) := hmaterialize raw.files s.disk
    rw [hsame]
    refine ⟨fun hlive => ⟨hlive, ?_⟩, fun hlive => hlive.1⟩
    rintro ⟨-, context, course, hreaches, -⟩
    exact hnot context course hreaches

/-- A nonce that is shown and is not live is refused, whoever the request says that its sender
is. -/
theorem materialize_of_not_live {kind : RequestKind R} (hvalid : kind.schema.validate = .ok ())
    (huser : kind.schema.needsUser = true) {raw : RawRequest} {s : Server} {nonce : String}
    (h : Presents kind raw s nonce) (hlive : s.nonces.contains nonce = false) :
    materialize kind raw s = (.error .badNonce, s) := by
  obtain ⟨hnonce, context, course, hreaches, rfl⟩ := h
  have hadmit : admitSender kind.schema s.backend s.nonces context course =
      (.error .badNonce, s.nonces) := by
    rw [admitSender, if_pos huser, authenticate, if_neg hnonce,
      Nonces.consume_of_not_live (.inr hlive)]
  exact materialize_of_refused hvalid hreaches hadmit raw.files s.disk

/-- A request that fails for a reason that comes before its sender changes nothing, unless its type
gives such a reason for a field. -/
theorem materialize_of_beforeSender {kind : RequestKind R} (hvalid : kind.schema.validate = .ok ())
    {raw : RawRequest} {s : Server} {f : Fault} (hf : (materialize kind raw s).1 = .error f)
    (hlocator : f.locator ∈ Locator.beforeSender)
    (hhydrate : ∀ r name value, kind.hydrate r name value ≠ .error f) :
    (materialize kind raw s).2 = s := by
  rcases reaches_or_early hvalid raw s with ⟨context, course, h⟩ | ⟨-, f', -, hmaterialize⟩
  · rcases hadmit : admitSender kind.schema s.backend s.nonces context course with
      ⟨f' | identity, left⟩
    · have hrefused : materialize kind raw s = (.error f', { s with nonces := left }) :=
        materialize_of_refused hvalid h hadmit raw.files s.disk
      rw [hrefused] at hf
      cases hf
      have hother : ∀ l ∈ Locator.beforeSender, l ∉ Locator.atSender := by decide
      exact absurd (locator_of_admitSender (congrArg Prod.fst hadmit)) (hother _ hlocator)
    · obtain ⟨r, assignment, hcomplete⟩ := materialize_of_admitted hvalid h hadmit
      rw [hcomplete] at hf
      obtain hfield | ⟨r', name, value, hown⟩ := locator_of_complete hf
      · have hother : ∀ l ∈ Locator.beforeSender, ¬ (l = .rosterWithoutCourse ∨
            l = .rosterFetchFailed ∨ l = .noFiles ∨ l = .fileStoreFailed) := by decide
        exact absurd hfield (hother _ hlocator)
      · exact absurd hown (hhydrate r' name value)
  · exact congrArg Prod.snd (hmaterialize raw.files s.disk)

/-- A request that fails for a reason that comes after its sender has spent its nonce, if it has
one. -/
theorem spent_of_afterSender {kind : RequestKind R} (hvalid : kind.schema.validate = .ok ())
    (huser : kind.schema.needsUser = true) {raw : RawRequest} {s : Server} {f : Fault}
    (hf : (materialize kind raw s).1 = .error f) (hlocator : f.locator ∈ Locator.afterSender) :
    ∃ context course, Reaches kind raw s context course ∧ (context.nonce ≠ "" →
      s.nonces.contains context.nonce = true ∧
        (materialize kind raw s).2.nonces.contains context.nonce = false) := by
  rcases reaches_or_early hvalid raw s with ⟨context, course, h⟩ | ⟨-, f', hearly, hmaterialize⟩
  · refine ⟨context, course, h, fun hnonce => ⟨?_, ?_⟩⟩
    · -- otherwise the request would have failed for its nonce
      by_contra hlive
      rw [materialize_of_not_live hvalid huser ((h.presents_iff _).2 ⟨hnonce, rfl⟩)
        (Bool.not_eq_true _ ▸ hlive)] at hf
      cases hf
      exact absurd hlocator (by decide)
    · rw [nonces_of_reaches hvalid huser h, if_neg hnonce, ← Bool.not_eq_true,
        Nonces.contains_remove]
      exact fun hleft => hleft.1 rfl
  · have hsame : materialize kind raw s = (.error f', s) := hmaterialize raw.files s.disk
    rw [hsame] at hf
    cases hf
    have hother : ∀ l ∈ Locator.afterSender, ¬ (l ∈ Locator.beforeSender ∨ l = .internal) := by
      decide
    exact absurd hearly (hother _ hlocator)

/-! ## The disk -/

/-- A request that is not `Authorised` leaves the disk alone, and does not look at it nor at its
files. -/
theorem materialize_of_not_authorised {kind : RequestKind R}
    (hvalid : kind.schema.validate = .ok ()) (huser : kind.schema.needsUser = true)
    {raw : RawRequest} {s : Server} (h : ¬ Authorised kind raw s) (files : List Upload) (d : Disk) :
    materialize kind ⟨raw.content, files⟩ { s with disk := d } =
      ((materialize kind raw s).1, { (materialize kind raw s).2 with disk := d }) := by
  rcases reaches_or_early hvalid raw s with ⟨context, course, hreaches⟩ | ⟨-, f, -, hmaterialize⟩
  · rcases hadmit : admitSender kind.schema s.backend s.nonces context course with
      ⟨f | identity, left⟩
    · have hrefused := materialize_of_refused hvalid hreaches hadmit
      have hsame : materialize kind raw s = (.error f, { s with nonces := left }) :=
        hrefused raw.files s.disk
      rw [hrefused, hsame]
    · exact absurd (authorised_of_admitSender huser hreaches hadmit) h
  · have hsame : materialize kind raw s = (.error f, s) := hmaterialize raw.files s.disk
    rw [hmaterialize, hsame]

variable {b : Backend} {root : String} {course : Option Course} {files : List Upload}
  {uploads : List UploadSet} {d e e' : Disk}

theorem held_fieldValue (hd : d.Connected) (h : Held d root uploads e) {field : ServerField}
    {value : FieldValue} (hvalue : fieldValue b root course files e field = (.ok value, e')) :
    Held d root (uploads ++ valueUploads value) e' := by
  obtain ⟨-, rfl, c, entries, -, -, rfl⟩ | ⟨-, set, hstore, rfl⟩ := fieldValue_eq_ok hvalue
  · rwa [valueUploads, List.append_nil]
  · exact h.store hd hstore

/-- When a field cannot be filled, nothing is left of the rest once it is discarded. -/
theorem cleared_fieldValue (hd : d.Connected) (h : Held d root uploads e) {field : ServerField}
    {f : Fault} (hvalue : fieldValue b root course files e field = (.error f, e')) :
    Cleared d root (UploadSet.discardAll uploads e') := by
  obtain ⟨-, rfl, -⟩ | ⟨-, hstore⟩ := fieldValue_eq_error hvalue
  · exact h.cleared hd
  · exact h.cleared_of_store hd hstore

/-- However far `fillFields` gets, nothing is left of what was stored once it is discarded. -/
theorem cleared_fillFields {hydrate : R → String → FieldValue → Except Fault R} {r : R}
    (hd : d.Connected) (h : Held d root uploads e) (fields : List ServerField) :
    Cleared d root (UploadSet.discardAll
      (fillFields hydrate b root course files r uploads e fields).uploads
      (fillFields hydrate b root course files r uploads e fields).disk) := by
  induction fields generalizing r uploads e with
  | nil => exact h.cleared hd
  | cons field rest ih =>
    rw [fillFields]
    rcases hvalue : fieldValue b root course files e field with ⟨f | value, e'⟩
    · exact cleared_fieldValue hd h hvalue
    · have hheld := held_fieldValue hd h hvalue
      dsimp only
      split
      · exact hheld.cleared hd
      · exact ih hheld

theorem cleared_complete {kind : RequestKind R} {r : R} {assignment : Option Assignment}
    {identity : Option Identity} {s : Server} (hd : s.disk.Connected) {f : Fault}
    (hf : (complete kind files r course assignment identity s).1 = .error f) :
    Cleared s.disk s.uploadRoot (complete kind files r course assignment identity s).2.disk := by
  have hheld : Held s.disk s.uploadRoot [] s.disk := .inl ⟨rfl, rfl⟩
  rw [complete] at hf ⊢
  split at hf
  · exact cleared_fillFields hd hheld kind.schema.fields
  · cases hf

theorem cleared_materialize {kind : RequestKind R} (hvalid : kind.schema.validate = .ok ())
    (huser : kind.schema.needsUser = true) {raw : RawRequest} {s : Server}
    (hd : s.disk.Connected) {f : Fault} (hf : (materialize kind raw s).1 = .error f) :
    Cleared s.disk s.uploadRoot (materialize kind raw s).2.disk := by
  by_cases h : Authorised kind raw s
  · obtain ⟨context, course, i, left, hreaches, hauthenticate, hauthorize⟩ := h
    have hadmit : admitSender kind.schema s.backend s.nonces context course =
        (.ok (some i), left) := by
      simp only [admitSender, huser, if_true, hauthenticate, hauthorize]
    obtain ⟨r, assignment, hcomplete⟩ := materialize_of_admitted hvalid hreaches hadmit
    rw [hcomplete] at hf ⊢
    exact cleared_complete (s := { s with nonces := left }) hd hf
  · have hsame := materialize_of_not_authorised hvalid huser h raw.files s.disk
    have hdisk : (materialize kind raw s).2.disk = s.disk := congrArg (fun o => o.2.disk) hsame
    rw [hdisk]
    exact cleared_of_asBefore (fun _ => .inl rfl) hd

/-! ## All that is left behind -/

/-- What a request does to what requests share while it is materialized.  Nothing but the nonces and
the disk can change (`unchanged`).  The live nonces are those that were live, without one that the
request shows (`nonces`), and one that is shown and not live is `refused`.  Nothing changes for a
reason that comes before the sender (`kept`), and the nonce is `spent` even if a later stage fails.
Without an authorised sender the disk is `untouched`, and neither it nor the files matter; a request
that fails leaves nothing behind under the root (`cleared`). -/
structure Traces (kind : RequestKind R) (raw : RawRequest) (s : Server) : Prop where
  unchanged : (materialize kind raw s).2 =
    { s with
      nonces := (materialize kind raw s).2.nonces
      disk := (materialize kind raw s).2.disk }
  nonces : ∀ nonce, (materialize kind raw s).2.nonces.contains nonce = true ↔
    s.nonces.contains nonce = true ∧ ¬ Presents kind raw s nonce
  refused : ∀ nonce, Presents kind raw s nonce → s.nonces.contains nonce = false →
    materialize kind raw s = (.error .badNonce, s)
  kept : ∀ f, (materialize kind raw s).1 = .error f → f.locator ∈ Locator.beforeSender →
    (∀ r name value, kind.hydrate r name value ≠ .error f) → (materialize kind raw s).2 = s
  spent : ∀ f, (materialize kind raw s).1 = .error f → f.locator ∈ Locator.afterSender →
    ∃ context course, Reaches kind raw s context course ∧ (context.nonce ≠ "" →
      s.nonces.contains context.nonce = true ∧
        (materialize kind raw s).2.nonces.contains context.nonce = false)
  untouched : ¬ Authorised kind raw s → ∀ files d,
    materialize kind ⟨raw.content, files⟩ { s with disk := d } =
      ((materialize kind raw s).1, { (materialize kind raw s).2 with disk := d })
  cleared : ∀ f, (materialize kind raw s).1 = .error f →
    Cleared s.disk s.uploadRoot (materialize kind raw s).2.disk

theorem complete_unchanged (kind : RequestKind R) (files : List Upload) (r : R)
    (course : Option Course) (assignment : Option Assignment) (identity : Option Identity)
    (s : Server) : (complete kind files r course assignment identity s).2 =
      { s with disk := (complete kind files r course assignment identity s).2.disk } := by
  rw [complete]
  split <;> rfl

theorem materialize_unchanged (kind : RequestKind R) (raw : RawRequest) (s : Server) :
    (materialize kind raw s).2 =
      { s with
        nonces := (materialize kind raw s).2.nonces
        disk := (materialize kind raw s).2.disk } := by
  rw [materialize]
  split
  · rfl
  · split
    · rfl
    · split
      · rfl
      · split
        · rfl
        · rw [nonces_complete]
          exact complete_unchanged kind _ _ _ _ _ _

/-- **A request touches only what it must.**  Whatever its type, as long as its schema makes sense
and asks for a user, and on whatever server: it changes nothing but nonces and disk, spends the
nonce that it shows exactly if it gets as far as its sender, puts nothing on the disk before its
sender is authorised, and leaves nothing there when it fails (`Traces`). -/
theorem materialize_traces {kind : RequestKind R} (hvalid : kind.schema.validate = .ok ())
    (huser : kind.schema.needsUser = true) (raw : RawRequest) {s : Server}
    (hd : s.disk.Connected) : Traces kind raw s where
  unchanged := materialize_unchanged kind raw s
  nonces := contains_nonces_materialize hvalid huser raw s
  refused _ := materialize_of_not_live hvalid huser
  kept _ := materialize_of_beforeSender hvalid
  spent _ := spent_of_afterSender hvalid huser
  untouched := materialize_of_not_authorised hvalid huser
  cleared _ := cleared_materialize hvalid huser hd

def clashing : RawRequest :=
  ⟨Endpoint.homework.content, [⟨"work/a.txt", [104, 105]⟩, ⟨"a.txt", []⟩]⟩

open Endpoint in
/-- Two files of one name are not stored, and nothing is left of the first, but the nonce is spent:
shown once more, it is refused. -/
theorem materialize_traces_clashing :
    ∃ detail u, materialize submitKind clashing homeworkServer =
        (.error (.fileStoreFailed detail), u) ∧
      u.nonces.contains "n" = false ∧ Cleared Disk.empty "/uploads" u.disk ∧
      materialize submitKind clashing u = (.error .badNonce, u) := by
  have hfails : ∃ detail, (materialize submitKind clashing homeworkServer).1 =
      .error (.fileStoreFailed detail) := ⟨_, rfl⟩
  have hshows : ∃ context course, Reaches submitKind clashing homeworkServer context course ∧
      context.nonce = "n" := ⟨_, _, ⟨_, _, rfl, rfl⟩, rfl⟩
  have hvalid : submitKind.schema.validate = .ok () := rfl
  have huser : submitKind.schema.needsUser = true := rfl
  have hempty : homeworkServer.disk.Connected := Disk.connected_empty
  have htraces := materialize_traces hvalid huser clashing hempty
  obtain ⟨detail, hdetail⟩ := hfails
  have hcleared := htraces.cleared _ hdetail
  have hspent : (materialize submitKind clashing homeworkServer).2.nonces.contains "n" = false := by
    rw [← Bool.not_eq_true, htraces.nonces]
    exact fun hleft => hleft.2 ⟨by decide, hshows⟩
  refine ⟨detail, _, Prod.ext hdetail rfl, hspent, hcleared, ?_⟩
  refine (materialize_traces hvalid huser clashing hcleared.connected).refused "n" ⟨by decide, ?_⟩
    hspent
  simpa only [Reaches, backend_materialize] using hshows

end Request
end Coursework
