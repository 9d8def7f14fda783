import Coursework.Proofs.Request.Schema
import Coursework.Proofs.Store
import Coursework.Request.Materialize

/-!
# What each stage of a request settles

A request goes through its stages in a fixed order, and the first that fails decides.  For each
stage there is one statement of what is known once it is passed; `Request.materialize_eq_ok` puts
them together, and `Request.materialize_of_resolved` says how it goes on from the middle.

The stage at which the sender's role is held against the markers is the only one that markers have
an effect on.  It asks for each of them in turn, in effect (`Request.authorize_eq`).
-/

set_option autoImplicit false

namespace Coursework

open Json

theorem Identity.hasRole_iff (i : Identity) (role : CourseRole) :
    i.hasRole role = true ↔ ∃ r, i.courseRole = some r ∧ r.satisfies role = true := by
  rw [hasRole]
  cases i.courseRole <;> simp

variable {R : Type}

theorem Materialized.identity_of_needIdentity {m : Materialized R} {i : Identity}
    (h : m.needIdentity = .ok i) : m.identity = some i := by
  rw [needIdentity] at h
  split at h
  · next j hj =>
    cases h
    exact hj
  · cases h

namespace Request

/-! ## The document -/

/-- The context that a request shows, whatever type of request it is read as. -/
def contextOf? (raw : RawRequest) : Option Context :=
  match Source.ofString? raw.content with
  | some (.object ms) => (Decode.textKeys ms).bind Context.ofFields?
  | _ => none

/-- A request type with fields of its own (`RequestKind.decodeWith`) reads the context that the
request shows. -/
theorem contextOf?_of_decodeWith {own : List String} {read : Decode.Fields → Option R}
    {raw : RawRequest} {r : R} {context : Context}
    (h : decodeText? (RequestKind.decodeWith own read) raw.content = some (r, context)) :
    contextOf? raw = some context := by
  obtain ⟨source, hsource, hdecode⟩ := Option.bind_eq_some_iff.1 h
  obtain ⟨fields, hfields, hread⟩ := Option.bind_eq_some_iff.1 hdecode
  obtain ⟨r', -, hcontext⟩ := Option.bind_eq_some_iff.1 hread
  obtain ⟨context', hof, hpair⟩ := Option.bind_eq_some_iff.1 hcontext
  have hctx : context' = context := congrArg Prod.snd (Option.some.inj hpair)
  rw [hctx] at hof
  cases source with
  | object ms =>
    rw [Decode.merged?] at hfields
    split at hfields
    · cases hfields
    · next fields' htext =>
      have heq : fields' = fields := by
        dsimp only at hfields
        split at hfields
        · exact Option.some.inj hfields
        · cases hfields
      rw [heq] at htext
      simp only [contextOf?, hsource, htext, Option.bind_some, hof]
  | _ => cases hfields

/-- A request whose text is not read is refused in the reader's words (`unread`), and nothing else
happens. -/
theorem materialize_of_unread {kind : RequestKind R} {content : String}
    (h : decodeText? kind.decode content = none) (files : List Upload) (s : Server) :
    materialize kind ⟨content, files⟩ s = (.error (unread kind content s), s) := by
  simp only [materialize, h]

/-! ## Course and assignment -/

/-- The course that is found is kept under the identifier that is asked for, in the form of
`normalId`. -/
theorem course?_of_findCourse {b : Backend} {context : Context} {c : Course}
    (h : findCourse b context = .ok c) : b.store.course? (normalId context.courseId) = some c := by
  rw [findCourse] at h
  split at h
  · cases h
  · split at h
    · cases h
    · cases h
    · next hcourse =>
      cases h
      exact Except.ok.inj (Backend.guarded_eq_ok hcourse)

theorem assignment?_of_findAssignment {b : Backend} {context : Context} {c : Course}
    {a : Assignment}
    (h : findAssignment b context c = .ok a) :
    b.store.assignment? c.id (normalId context.assignmentId) = some a := by
  rw [findAssignment] at h
  split at h
  · cases h
  · split at h
    · cases h
    · cases h
    · next hassignment =>
      cases h
      exact Except.ok.inj (Backend.guarded_eq_ok hassignment)

theorem course_of_resolve {schema : Schema} {context : Context} {b : Backend}
    {course : Option Course} {assignment : Option Assignment}
    (h : resolve schema context b = .ok (course, assignment))
    (hneeds : schema.needsCourse = false) :
    course = none := by
  rw [resolve, if_neg (by simp [hneeds])] at h
  cases h
  rfl

theorem findCourse_of_resolve {schema : Schema} {context : Context} {b : Backend}
    {course : Option Course} {assignment : Option Assignment}
    (h : resolve schema context b = .ok (course, assignment)) (hneeds : schema.needsCourse = true) :
    ∃ c, findCourse b context = .ok c ∧ course = some c := by
  rw [resolve, if_pos hneeds] at h
  cases hfind : findCourse b context with
  | error e =>
    rw [hfind] at h
    cases h
  | ok c =>
    rw [hfind] at h
    refine ⟨c, rfl, ?_⟩
    dsimp only at h
    split at h
    · split at h <;> cases h
      rfl
    · cases h
      rfl

/-! ## The sender -/

/-- Whoever a request runs as has the role in its course that the account has, the one that the
server role implies before the one that is listed. -/
theorem courseRole_of_authenticate {b : Backend} {nonces : Nonces} {context : Context}
    {course : Option Course} {i : Identity}
    (h : (authenticate b nonces context course).1 = .ok i) :
    i.courseRole = course.bind fun c => i.account.courseRole? c.id := by
  rw [authenticate] at h
  split at h
  · cases hcheck : checkCredentials b context with
    | error e =>
      rw [hcheck] at h
      cases h
    | ok a =>
      rw [hcheck] at h
      cases h
      rfl
  · split at h
    · cases h
      rfl
    · cases h

/-- Without a nonce, the sender is the account that is kept under the email that is shown. -/
theorem account?_of_authenticate {b : Backend} {nonces : Nonces} {context : Context}
    {course : Option Course} {i : Identity}
    (h : (authenticate b nonces context course).1 = .ok i) (hnonce : context.nonce = "") :
    b.store.account? (Text.trim context.userEmail) = some i.account := by
  rw [authenticate, if_pos hnonce, checkCredentials] at h
  dsimp only at h
  split at h
  · cases h
  · split at h
    · cases h
    · cases h
    · next haccount =>
      split at h
      · cases h
        exact Except.ok.inj (Backend.guarded_eq_ok haccount)
      · cases h

theorem authorize_eq (schema : Schema) (i : Identity) :
    authorize schema i =
      if ∀ role ∈ schema.markers, i.hasRole role = true then .ok ()
      else .error .permissionDenied := by
  rw [authorize]
  cases hrequired : schema.required? with
  | none =>
    have hempty := (schema.required?_eq_none_iff).1 hrequired
    simp [hempty]
  | some required =>
    by_cases hmeets : i.hasRole required = true
    · obtain ⟨r, hrole, hsatisfies⟩ := (i.hasRole_iff required).1 hmeets
      have hall := (schema.satisfies_required?_iff r).1 fun q hq => by
        rw [hrequired] at hq
        exact Option.some.inj hq ▸ hsatisfies
      simp only [if_pos hmeets]
      exact (if_pos fun role hmem => (i.hasRole_iff role).2 ⟨r, hrole, hall role hmem⟩).symm
    · simp only [if_neg hmeets]
      exact (if_neg fun hall => hmeets (hall required (Schema.mem_of_required? hrequired))).symm

/-- The markers that matter to `authorize` are those that are there, however often and in whatever
order. -/
theorem authorize_congr {s u : Schema} (h : ∀ role, role ∈ s.markers ↔ role ∈ u.markers)
    (i : Identity) : authorize s i = authorize u i := by
  simp only [authorize_eq, h]

theorem admitSender_eq_ok {schema : Schema} {b : Backend} {nonces left : Nonces}
    {context : Context} {course : Option Course} {identity : Option Identity}
    (h : admitSender schema b nonces context course = (.ok identity, left))
    (hneeds : schema.needsUser = true) :
    ∃ i, identity = some i ∧ authenticate b nonces context course = (.ok i, left) ∧
      authorize schema i = .ok () := by
  rw [admitSender, if_pos hneeds] at h
  split at h
  · cases h
  · next i nonces' hauthenticate =>
    split at h
    · cases h
    · next hauthorize =>
      cases h
      exact ⟨i, rfl, hauthenticate, hauthorize⟩

/-- Whoever is let in is let in just as well where less is required. -/
theorem admitSender_of_subset {s u : Schema} {b : Backend} {nonces left : Nonces}
    {context : Context} {course : Option Course} {identity : Option Identity}
    (h : admitSender u b nonces context course = (.ok identity, left))
    (hunmarked : s.unmarked = u.unmarked) (hsubset : ∀ role ∈ s.markers, role ∈ u.markers) :
    admitSender s b nonces context course = (.ok identity, left) := by
  obtain ⟨huser, -, -, -⟩ := (Schema.unmarked_eq_iff s u).1 hunmarked
  cases hneeds : u.needsUser with
  | false =>
    rw [admitSender, huser, hneeds]
    rw [admitSender, hneeds] at h
    exact h
  | true =>
    obtain ⟨i, rfl, hauthenticate, hauthorize⟩ := admitSender_eq_ok h hneeds
    have hmay : authorize s i = .ok () := by
      rw [authorize_eq] at hauthorize ⊢
      split at hauthorize
      · next hall => exact if_pos fun role hrole => hall role (hsubset role hrole)
      · cases hauthorize
    simp only [admitSender, huser, hneeds, if_true, hauthenticate, hmay]

/-! ## Fields -/

/-- Files that cannot be kept are no files, or a file cannot be written. -/
theorem locator_of_writeAll {directory : String} {d : Disk} {written : List String}
    {files : List Upload} {f : Fault}
    (h : (UploadSet.writeAll directory d written files).1 = .error f) :
    f.locator = .fileStoreFailed := by
  induction files generalizing d written with
  | nil => cases h
  | cons u rest ih =>
    rw [UploadSet.writeAll] at h
    split at h
    · cases h
      rfl
    · split at h
      · cases h
        rfl
      · dsimp only at h
        split at h
        · cases h
          rfl
        · exact ih h

theorem locator_of_store {d : Disk} {root : String} {files : List Upload} {f : Fault}
    (h : (UploadSet.store d root files).1 = .error f) :
    f.locator = .noFiles ∨ f.locator = .fileStoreFailed := by
  rw [UploadSet.store] at h
  split at h
  · cases h
    exact .inl rfl
  · right
    split at h
    · cases h
      rfl
    · split at h
      · cases h
        rfl
      · next hfresh =>
        split at h
        · next hwrite =>
          cases h
          exact locator_of_writeAll (congrArg Prod.fst hwrite)
        · cases h

section Value

variable {b : Backend} {root : String} {course : Option Course} {files : List Upload}
  {disk left : Disk} {field : ServerField}

/-- A field is filled with the roster of the course or with files that were kept. -/
theorem fieldValue_eq_ok {value : FieldValue}
    (h : fieldValue b root course files disk field = (.ok value, left)) :
    (field.kind = .roster ∧ left = disk ∧ ∃ c entries, course = some c ∧
        b.roster c.id = .ok entries ∧ value = .roster entries) ∨
      field.kind = .files ∧ ∃ set, UploadSet.store disk root files = (.ok set, left) ∧
        value = .files set := by
  unfold fieldValue at h
  split at h
  · next hkind =>
    split at h
    · cases h
    next c =>
    split at h
    · cases h
    next entries hroster =>
    cases h
    exact .inl ⟨hkind, rfl, c, entries, rfl, hroster, rfl⟩
  · next hkind =>
    split at h
    · cases h
    next set _ hstore =>
    cases h
    exact .inr ⟨hkind, set, hstore, rfl⟩

/-- A field that cannot be filled asks for a roster that cannot be had or for files that cannot be
kept. -/
theorem fieldValue_eq_error {f : Fault}
    (h : fieldValue b root course files disk field = (.error f, left)) :
    (field.kind = .roster ∧ left = disk ∧ (course = none ∧ f = .rosterWithoutCourse field.name ∨
        ∃ c e, course = some c ∧ b.roster c.id = .error e ∧ f = .rosterFetchFailed e.message)) ∨
      field.kind = .files ∧ UploadSet.store disk root files = (.error f, left) := by
  unfold fieldValue at h
  split at h
  · next hkind =>
    split at h
    · cases h
      exact .inl ⟨hkind, rfl, .inl ⟨rfl, rfl⟩⟩
    next c =>
    split at h
    · next e hroster =>
      cases h
      exact .inl ⟨hkind, rfl, .inr ⟨c, e, rfl, hroster, rfl⟩⟩
    · cases h
  · next hkind =>
    split at h
    · next hstore =>
      cases h
      exact .inr ⟨hkind, hstore⟩
    · cases h

theorem locator_of_fieldValue {f : Fault}
    (h : (fieldValue b root course files disk field).1 = .error f) :
    f.locator = .rosterWithoutCourse ∨ f.locator = .rosterFetchFailed ∨ f.locator = .noFiles ∨
      f.locator = .fileStoreFailed := by
  obtain ⟨-, -, ⟨-, rfl⟩ | ⟨c, e, -, -, rfl⟩⟩ | ⟨-, hstore⟩ := fieldValue_eq_error (Prod.ext h rfl)
  · exact .inl rfl
  · exact .inr (.inl rfl)
  · exact .inr (.inr (locator_of_store (congrArg Prod.fst hstore)))

end Value

/-- Filling fails with a fault of a value (`fieldValue`) or with one of the request type itself. -/
theorem fillFields_eq_error {hydrate : R → String → FieldValue → Except Fault R} {b : Backend}
    {root : String} {course : Option Course} {files : List Upload} {r : R}
    {uploads : List UploadSet} {disk : Disk} {fields : List ServerField} {f : Fault}
    (h : (fillFields hydrate b root course files r uploads disk fields).request = .error f) :
    (∃ disk, ∃ field ∈ fields, (fieldValue b root course files disk field).1 = .error f) ∨
      ∃ r name value, hydrate r name value = .error f := by
  induction fields generalizing r uploads disk with
  | nil => cases h
  | cons field rest ih =>
    rw [fillFields] at h
    split at h
    · next hvalue =>
      cases h
      exact .inl ⟨disk, field, List.mem_cons_self, congrArg Prod.fst hvalue⟩
    · next value disk' hvalue =>
      dsimp only at h
      split at h
      · next hhydrate =>
        cases h
        exact .inr ⟨r, field.name, value, hhydrate⟩
      · refine (ih h).imp_left ?_
        rintro ⟨d, other, hother, hvalue⟩
        exact ⟨d, other, List.mem_cons_of_mem _ hother, hvalue⟩

/-- At its last stage a request fails with a fault of its fields, if at all. -/
theorem locator_of_complete {kind : RequestKind R} {files : List Upload} {r : R}
    {course : Option Course} {assignment : Option Assignment} {identity : Option Identity}
    {s : Server} {f : Fault}
    (h : (complete kind files r course assignment identity s).1 = .error f) :
    (f.locator = .rosterWithoutCourse ∨ f.locator = .rosterFetchFailed ∨ f.locator = .noFiles ∨
      f.locator = .fileStoreFailed) ∨ ∃ r name value, kind.hydrate r name value = .error f := by
  rw [complete] at h
  split at h
  · next hfilled =>
    cases h
    exact (fillFields_eq_error hfilled).imp_left fun ⟨_, _, _, hvalue⟩ =>
      locator_of_fieldValue hvalue
  · cases h

theorem complete_of_no_fields {kind : RequestKind R} (hfields : kind.schema.fields = [])
    (files : List Upload) (r : R) (course : Option Course) (assignment : Option Assignment)
    (identity : Option Identity) (s : Server) :
    complete kind files r course assignment identity s =
      (.ok ⟨r, course, assignment, identity, []⟩, s) := by
  rw [complete, hfields]
  rfl

theorem complete_of_field {kind : RequestKind R} {field : ServerField}
    (hfields : kind.schema.fields = [field]) (files : List Upload) (r : R) (course : Option Course)
    (assignment : Option Assignment) (identity : Option Identity) (s : Server) :
    complete kind files r course assignment identity s =
      match fieldValue s.backend s.uploadRoot course files s.disk field with
      | (.error e, disk) => (.error e, { s with disk := disk })
      | (.ok value, disk) =>
        match kind.hydrate r field.name value with
        | .error e => (.error e, { s with disk := UploadSet.discardAll (valueUploads value) disk })
        | .ok r =>
          (.ok ⟨r, course, assignment, identity, valueUploads value⟩, { s with disk := disk }) := by
  rw [complete, hfields, fillFields]
  rcases fieldValue s.backend s.uploadRoot course files s.disk field with ⟨e | value, disk⟩
  · rfl
  · dsimp only
    rcases kind.hydrate r field.name value with e | r
    · rfl
    · rfl

/-- What is complete has the course, the assignment and the sender that were found. -/
theorem complete_eq_ok {kind : RequestKind R} {files : List Upload} {r : R} {course : Option Course}
    {assignment : Option Assignment} {identity : Option Identity} {s u : Server}
    {m : Materialized R} (h : complete kind files r course assignment identity s = (.ok m, u)) :
    m.course = course ∧ m.assignment = assignment ∧ m.identity = identity := by
  rw [complete] at h
  split at h
  · cases h
  · obtain ⟨hm, -⟩ := Prod.mk.inj h
    obtain rfl := Except.ok.inj hm
    exact ⟨rfl, rfl, rfl⟩

theorem backend_complete (kind : RequestKind R) (files : List Upload) (r : R)
    (course : Option Course) (assignment : Option Assignment) (identity : Option Identity)
    (s : Server) : (complete kind files r course assignment identity s).2.backend = s.backend := by
  rw [complete]
  split <;> rfl

/-! ## All stages -/

theorem backend_materialize (kind : RequestKind R) (raw : RawRequest) (s : Server) :
    (materialize kind raw s).2.backend = s.backend := by
  rw [materialize]
  split
  · rfl
  · split
    · rfl
    · split
      · rfl
      · split
        · rfl
        · rw [backend_complete]

/-- How a request goes on that was decoded and whose course and assignment were found. -/
theorem materialize_of_resolved {kind : RequestKind R} {raw : RawRequest} {s : Server} {r : R}
    {context : Context} {course : Option Course} {assignment : Option Assignment}
    (hdecode : decodeText? kind.decode raw.content = some (r, context))
    (hvalid : kind.schema.validate = .ok ())
    (hresolve : resolve kind.schema context s.backend = .ok (course, assignment)) :
    materialize kind raw s =
      match admitSender kind.schema s.backend s.nonces context course with
      | (.error e, nonces) => (.error e, { s with nonces := nonces })
      | (.ok identity, nonces) =>
        complete kind raw.files r course assignment identity { s with nonces := nonces } := by
  cases hadmit : admitSender kind.schema s.backend s.nonces context course with
  | mk outcome nonces =>
    cases outcome <;> simp only [materialize, hdecode, hvalid, hresolve, hadmit]

/-- **What is known of a request that may run**: the stages of `materialize` that it has been
through, in their order. -/
theorem materialize_eq_ok {kind : RequestKind R} {raw : RawRequest} {s u : Server}
    {m : Materialized R} (h : materialize kind raw s = (.ok m, u)) :
    ∃ r context nonces, decodeText? kind.decode raw.content = some (r, context) ∧
      kind.schema.validate = .ok () ∧
      resolve kind.schema context s.backend = .ok (m.course, m.assignment) ∧
      admitSender kind.schema s.backend s.nonces context m.course = (.ok m.identity, nonces) ∧
      complete kind raw.files r m.course m.assignment m.identity { s with nonces := nonces } =
        (.ok m, u) := by
  rw [materialize] at h
  split at h
  · cases h
  · next r context hdecode =>
    split at h
    · cases h
    · next hvalid =>
      split at h
      · cases h
      · next course assignment hresolve =>
        split at h
        · cases h
        · next identity nonces hadmit =>
          obtain ⟨rfl, rfl, rfl⟩ := complete_eq_ok h
          exact ⟨r, context, nonces, hdecode, hvalid, hresolve, hadmit, h⟩

end Request
end Coursework
