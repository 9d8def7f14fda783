import Coursework.Proofs.Confinement.Stores
import Coursework.Proofs.Request.Stages

/-!
# A request on two servers, up to its handler

The same request is sent to two servers that differ in their stores only, and the stores agree for
the user who sends it.  Each stage of the request is run on both servers side by side.

The user is no staff in the course of the request (`Request.NoStaff`).  Where the roster of a course
is asked for, such a user is refused before anything is looked up in it, so that a request gets
equally far on both servers, and its handler is given the same (`Request.materialize_withStore`).
-/

set_option autoImplicit false

namespace Coursework

open Json

def Server.withStore (s : Server) (u : Store) : Server :=
  { s with backend := s.backend.withStore u }

/-- What comes out on a server and on the same server over another store, as far as a user is
concerned: the same answer, servers that differ in their stores only, and stores that again agree
for the user (`AgreeFor`) and in which nothing but the user's own has changed since `s` and `u`. -/
structure Confined {α : Type} (email : String) (s u : Store) (p q : α × Server) : Prop where
  answer : q.1 = p.1
  rest : q.2 = p.2.withStore q.2.backend.store
  agree : p.2.backend.store.AgreeFor email q.2.backend.store
  first : s.ChangedOnlyFor email p.2.backend.store
  second : u.ChangedOnlyFor email q.2.backend.store

namespace Confined

variable {α β : Type} {email : String} {s u : Store}

theorem unwritten (h : s.AgreeFor email u) (a : α) {v : Server} (hv : v.backend.store = s) :
    Confined email s u (a, v) (a, v.withStore u) where
  answer := rfl
  rest := rfl
  agree := by
    rw [hv]
    exact h
  first := by
    rw [hv]
    exact .refl email s
  second := .refl email u

/-- The answer may be put in another form, and whatever is no part of the store may change. -/
theorem map {p q : α × Server} (h : Confined email s u p q) (f : α → β) {g : Server → Server}
    (hstore : ∀ v w, g (v.withStore w) = (g v).withStore w)
    (hbackend : ∀ v, (g v).backend = v.backend) :
    Confined email s u (f p.1, g p.2) (f q.1, g q.2) where
  answer := congrArg f h.answer
  rest := by
    rw [hbackend, ← hstore]
    exact congrArg g h.rest
  agree := by
    rw [hbackend, hbackend]
    exact h.agree
  first := by
    rw [hbackend]
    exact h.first
  second := by
    rw [hbackend]
    exact h.second

end Confined

/-! ## Up to the handler -/

namespace Request

variable {R : Type} {email : String} {context : Context}

section Stages

variable {b : Backend} {u : Store} (h : b.store.AgreeFor email u)
include h

theorem resolve_withStore (schema : Schema) :
    resolve schema context (b.withStore u) = resolve schema context b := by
  have hcourse : findCourse (b.withStore u) context = findCourse b context := by
    rw [findCourse, findCourse, Backend.course?_withStore h]
  have hassignment : ∀ c, findAssignment (b.withStore u) context c =
      findAssignment b context c := by
    intro c
    rw [findAssignment, findAssignment, Backend.assignment?_withStore h]
  simp only [resolve, hcourse, hassignment]

theorem admitSender_withStore (hemail : Text.trim context.userEmail = email) (schema : Schema)
    (nonces : Nonces) (course : Option Course) :
    admitSender schema (b.withStore u) nonces context course =
      admitSender schema b nonces context course := by
  have hcheck : checkCredentials (b.withStore u) context = checkCredentials b context := by
    rw [checkCredentials, checkCredentials, hemail, Backend.account?_withStore h]
  simp only [admitSender, authenticate, hcheck]

end Stages

theorem fillFields_withStore (hydrate : R → String → FieldValue → Except Fault R) (b : Backend)
    (u : Store) (root : String) (course : Option Course) (files : List Upload) (r : R)
    (uploads : List UploadSet) (disk : Disk) {fields : List ServerField}
    (hfields : ∀ f ∈ fields, f.kind = .files) :
    fillFields hydrate (b.withStore u) root course files r uploads disk fields =
      fillFields hydrate b root course files r uploads disk fields := by
  induction fields generalizing r uploads disk with
  | nil => rfl
  | cons field rest ih =>
    have hvalue : fieldValue (b.withStore u) root course files disk field =
        fieldValue b root course files disk field := by
      simp only [fieldValue, hfields field List.mem_cons_self]
    simp only [fillFields, hvalue, ih _ _ _ fun f hf => hfields f (List.mem_cons_of_mem _ hf)]

theorem complete_withStore {kind : RequestKind R}
    (hfields : ∀ f ∈ kind.schema.fields, f.kind = .files)
    (files : List Upload) (r : R) (course : Option Course) (assignment : Option Assignment)
    (identity : Option Identity) (s : Server) (u : Store) :
    complete kind files r course assignment identity (s.withStore u) =
      ((complete kind files r course assignment identity s).1,
        (complete kind files r course assignment identity s).2.withStore u) := by
  have hfill : fillFields kind.hydrate (s.withStore u).backend (s.withStore u).uploadRoot course
        files r [] (s.withStore u).disk kind.schema.fields =
        fillFields kind.hydrate s.backend s.uploadRoot course files r [] s.disk
          kind.schema.fields :=
    fillFields_withStore kind.hydrate s.backend u s.uploadRoot course files r [] s.disk hfields
  rw [complete, complete, hfill]
  split <;> rfl

theorem unread_withStore (kind : RequestKind R) (content : String) (s : Server) (u : Store) :
    unread kind content (s.withStore u) = unread kind content s := rfl

/-- A request comes to the same on both servers, as long as nobody who gets as far as the fields is
to have a roster. -/
theorem materialize_withStore {kind : RequestKind R} {raw : RawRequest} {s : Server} {u : Store}
    (h : s.backend.store.AgreeFor email u)
    (hcontext : ∀ r c, decodeText? kind.decode raw.content = some (r, c) → c = context)
    (hemail : Text.trim context.userEmail = email)
    (hfields : ∀ course assignment identity nonces,
      resolve kind.schema context s.backend = .ok (course, assignment) →
      admitSender kind.schema s.backend s.nonces context course = (.ok identity, nonces) →
      ∀ f ∈ kind.schema.fields, f.kind = .files) :
    materialize kind raw (s.withStore u) =
      ((materialize kind raw s).1, (materialize kind raw s).2.withStore u) := by
  cases hdecode : decodeText? kind.decode raw.content with
  | none => rw [materialize_of_unread hdecode, materialize_of_unread hdecode, unread_withStore]
  | some decoded =>
    obtain ⟨r, c⟩ := decoded
    cases hcontext r c hdecode
    cases hvalid : kind.schema.validate with
    | error e => simp only [materialize, hdecode, hvalid]
    | ok _ =>
      have hsame : resolve kind.schema context (s.withStore u).backend =
          resolve kind.schema context s.backend := resolve_withStore h kind.schema
      cases hresolve : resolve kind.schema context s.backend with
      | error e => simp only [materialize, hdecode, hvalid, hsame, hresolve]
      | ok found =>
        obtain ⟨course, assignment⟩ := found
        have hadmitted : admitSender kind.schema (s.withStore u).backend (s.withStore u).nonces
            context course = admitSender kind.schema s.backend s.nonces context course :=
          admitSender_withStore h hemail kind.schema s.nonces course
        rw [materialize_of_resolved hdecode hvalid hresolve,
          materialize_of_resolved hdecode hvalid (hsame.trans hresolve), hadmitted]
        cases hadmit : admitSender kind.schema s.backend s.nonces context course with
        | mk outcome nonces =>
          cases outcome with
          | error e => rfl
          | ok identity =>
            exact complete_withStore (hfields course assignment identity nonces hresolve hadmit)
              raw.files r course assignment identity { s with nonces := nonces } u

/-! ## The sender -/

/-- A request runs as a user who is no staff: the sender has the email, and no role of staff in the
course. -/
structure RunsAs (email : String) (store : Store) (i : Identity) : Prop where
  account : store.account? email = some i.account
  email : i.account.email = email
  role : i.hasRole .grader = false

/-- What has to be known of the role of a user: in the course that a request names, if its endpoint
has one, it is no staff role. -/
def NoStaff (email : String) (store : Store) (schema : Schema) (context : Context) : Prop :=
  schema.needsCourse = true → ∀ a, store.account? email = some a →
    ∀ role, a.courseRole? (normalId context.courseId) = some role → role.isStaff = false

/-- Whoever is identified by their password and has no staff role in the course (`NoStaff`) runs as
just that. -/
theorem runsAs_of_authenticate {schema : Schema} {b : Backend} {nonces : Nonces}
    {course : Option Course} {assignment : Option Assignment} {i : Identity}
    (hkeyed : b.store.Keyed) (hnonce : context.nonce = "")
    (hemail : Text.trim context.userEmail = email) (hrole : NoStaff email b.store schema context)
    (hresolve : resolve schema context b = .ok (course, assignment))
    (hi : (authenticate b nonces context course).1 = .ok i) : RunsAs email b.store i := by
  have haccount : b.store.account? email = some i.account :=
    hemail ▸ account?_of_authenticate hi hnonce
  have heffective := courseRole_of_authenticate hi
  refine ⟨haccount, hkeyed.account _ _ haccount, ?_⟩
  rw [Identity.hasRole, heffective]
  cases hneeds : schema.needsCourse with
  | false =>
    rw [course_of_resolve hresolve hneeds]
    rfl
  | true =>
    obtain ⟨c, hfind, rfl⟩ := findCourse_of_resolve hresolve hneeds
    have hid : c.id = normalId context.courseId :=
      hkeyed.course _ _ (course?_of_findCourse hfind)
    cases hheld : i.account.courseRole? c.id with
    | none => simp [hheld]
    | some role =>
      have hstaff := hrole hneeds i.account haccount role (hid ▸ hheld)
      simpa [hheld, CourseRole.isStaff] using hstaff

/-- Whatever role is asked of staff, the user does not get past it. -/
theorem admitSender_ne_ok {schema : Schema} {b : Backend} {nonces left : Nonces}
    {course : Option Course} {assignment : Option Assignment} {identity : Option Identity}
    (hkeyed : b.store.Keyed) (hnonce : context.nonce = "")
    (hemail : Text.trim context.userEmail = email) (hrole : NoStaff email b.store schema context)
    (hresolve : resolve schema context b = .ok (course, assignment))
    (hneeds : schema.needsUser = true) (hmarker : .grader ∈ schema.markers) :
    admitSender schema b nonces context course ≠ (.ok identity, left) := by
  intro hadmit
  obtain ⟨i, -, hi, hauthorize⟩ := admitSender_eq_ok hadmit hneeds
  have hruns := runsAs_of_authenticate hkeyed hnonce hemail hrole hresolve (congrArg Prod.fst hi)
  rw [authorize_eq] at hauthorize
  split at hauthorize
  · next hall =>
    have hgrader := hall .grader hmarker
    rw [hruns.role] at hgrader
    cases hgrader
  · cases hauthorize

theorem runsAs_of_materialize {kind : RequestKind R} {raw : RawRequest} {s v : Server}
    {m : Materialized R} (hkeyed : s.backend.store.Keyed)
    (hcontext : ∀ r c, decodeText? kind.decode raw.content = some (r, c) → c = context)
    (hnonce : context.nonce = "") (hemail : Text.trim context.userEmail = email)
    (hrole : NoStaff email s.backend.store kind.schema context)
    (hm : materialize kind raw s = (.ok m, v)) {i : Identity} (hi : m.identity = some i) :
    RunsAs email s.backend.store i := by
  obtain ⟨r, c, nonces, hdecode, -, hresolve, hadmit, -⟩ := materialize_eq_ok hm
  cases hcontext r c hdecode
  cases hneeds : kind.schema.needsUser with
  | false =>
    rw [admitSender, hneeds] at hadmit
    rw [hi] at hadmit
    cases hadmit
  | true =>
    obtain ⟨j, hj, hauthenticate, -⟩ := admitSender_eq_ok hadmit hneeds
    rw [hi] at hj
    cases hj
    exact runsAs_of_authenticate hkeyed hnonce hemail hrole hresolve
      (congrArg Prod.fst hauthenticate)

end Request
end Coursework
