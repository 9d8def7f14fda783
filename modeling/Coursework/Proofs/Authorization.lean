import Coursework.Endpoint.Roster
import Coursework.Proofs.Request.Stages

/-!
# Who gets to a handler

A request type declares markers, the roles that its senders need, and leaves it to the server to ask
for them.  The server asks for the most privileged one only, only where the type asks for a user,
and in the midst of other stages.  That this is enough for every schema that can be built and
registered is shown here: a request gets to its handler only if its sender was identified and has
each of the roles, and is refused for lack of permission only if a role is missing.

What the markers come to is a set.  Their order and number do not matter, and one more can only keep
requests out.
-/

set_option autoImplicit false

namespace Coursework

open Json

namespace Request

variable {R : Type}

/-- The request was decoded, its course and assignment were found, and if it needs a sender, this is
who `authenticate` identified it to come from. -/
def Identified (kind : RequestKind R) (raw : RawRequest) (s : Server) (i : Identity) : Prop :=
  ∃ r context course assignment, decodeText? kind.decode raw.content = some (r, context) ∧
    resolve kind.schema context s.backend = .ok (course, assignment) ∧
    (kind.schema.needsUser = true →
      (authenticate s.backend s.nonces context course).1 = .ok i)

/-- The request names a course that is there, its sender was identified, it runs as the sender in
this course, and the account of the sender has a role there that meets the one given. -/
def RunsWithRole (kind : RequestKind R) (raw : RawRequest) (s : Server) (m : Materialized R)
    (role : CourseRole) : Prop :=
  ∃ r context c i held, decodeText? kind.decode raw.content = some (r, context) ∧
    findCourse s.backend context = .ok c ∧ m.course = some c ∧
    (authenticate s.backend s.nonces context (some c)).1 = .ok i ∧ m.identity = some i ∧
    i.account.courseRole? c.id = some held ∧ held.satisfies role = true

/-- A marker holds of every request that may run, so that it `RunsWithRole` for each role that its
schema declares. -/
theorem runsWithRole_of_materialize {kind : RequestKind R} (hnested : kind.schema.Nested)
    {raw : RawRequest} {s u : Server} {m : Materialized R}
    (h : materialize kind raw s = (.ok m, u)) {role : CourseRole}
    (hrole : role ∈ kind.schema.markers) : RunsWithRole kind raw s m role := by
  obtain ⟨r, context, nonces, hdecode, hvalid, hresolve, hadmit, -⟩ := materialize_eq_ok h
  have hcourse := Schema.needsCourse_of_mem_markers hvalid hrole
  obtain ⟨c, hfind, hc⟩ := findCourse_of_resolve hresolve hcourse
  rw [hc] at hadmit
  obtain ⟨i, hi, hauthenticate, hauthorize⟩ :=
    admitSender_eq_ok hadmit (hnested.user_of_course hcourse)
  have hidentified := congrArg Prod.fst hauthenticate
  have heffective := courseRole_of_authenticate hidentified
  have hmeets : i.hasRole role = true := by
    rw [authorize_eq] at hauthorize
    split at hauthorize
    · next hall => exact hall role hrole
    · cases hauthorize
  obtain ⟨held, hheld, hsatisfies⟩ := (i.hasRole_iff role).1 hmeets
  exact ⟨r, context, c, i, held, hdecode, hfind, hc, hidentified, hi, heffective.symm.trans hheld,
    hsatisfies⟩

/-- A request whose sender lacks a role that is declared fails for lack of permission. -/
theorem materialize_of_lacking {kind : RequestKind R} (hnested : kind.schema.Nested)
    (hvalid : kind.schema.validate = .ok ()) {raw : RawRequest} {s : Server} {i : Identity}
    (hi : Identified kind raw s i) {role : CourseRole} (hrole : role ∈ kind.schema.markers)
    (hlacks : i.hasRole role = false) :
    (materialize kind raw s).1 = .error .permissionDenied := by
  obtain ⟨r, context, course, assignment, hdecode, hresolve, hidentified⟩ := hi
  have huser := hnested.user_of_course (Schema.needsCourse_of_mem_markers hvalid hrole)
  have hdenied : authorize kind.schema i = .error .permissionDenied := by
    rw [authorize_eq, if_neg]
    intro hall
    rw [hall role hrole] at hlacks
    cases hlacks
  rw [materialize_of_resolved hdecode hvalid hresolve, admitSender, if_pos huser]
  cases hauthenticate : authenticate s.backend s.nonces context course with
  | mk outcome nonces =>
    have houtcome := hidentified huser
    rw [hauthenticate] at houtcome
    dsimp only at houtcome
    simp only [houtcome, hdenied]

/-- A request whose sender has every role that is declared does not fail for lack of permission,
unless its type itself says so when a field is filled. -/
theorem locator_of_meeting {kind : RequestKind R} (hvalid : kind.schema.validate = .ok ())
    (hhydrate : ∀ r name value f, kind.hydrate r name value = .error f →
      f.locator ≠ .permissionDenied)
    {raw : RawRequest} {s : Server} {i : Identity} (hi : Identified kind raw s i)
    (hmeets : ∀ role ∈ kind.schema.markers, i.hasRole role = true) {f : Fault}
    (hf : (materialize kind raw s).1 = .error f) : f.locator ≠ .permissionDenied := by
  obtain ⟨r, context, course, assignment, hdecode, hresolve, hidentified⟩ := hi
  have hadmit : ∃ identity nonces,
      admitSender kind.schema s.backend s.nonces context course = (.ok identity, nonces) := by
    cases huser : kind.schema.needsUser with
    | false => exact ⟨none, s.nonces, by rw [admitSender, huser]; rfl⟩
    | true =>
      have hallowed : authorize kind.schema i = .ok () := by
        rw [authorize_eq, if_pos hmeets]
      cases hauthenticate : authenticate s.backend s.nonces context course with
      | mk outcome nonces =>
        have houtcome := hidentified huser
        rw [hauthenticate] at houtcome
        dsimp only at houtcome
        exact ⟨some i, nonces, by
          simp only [admitSender, huser, if_true, hauthenticate, houtcome, hallowed]⟩
  obtain ⟨identity, nonces, hadmit⟩ := hadmit
  rw [materialize_of_resolved hdecode hvalid hresolve, hadmit] at hf
  rcases locator_of_complete hf with hlocator | ⟨r', name, value, hown⟩
  · rcases hlocator with h | h | h | h <;> rw [h] <;> decide
  · exact hhydrate r' name value f hown

theorem materialize_congr {kind : RequestKind R} {schema : Schema}
    (hunmarked : schema.unmarked = kind.schema.unmarked)
    (hmarkers : ∀ role, role ∈ schema.markers ↔ role ∈ kind.schema.markers)
    (raw : RawRequest) (s : Server) :
    materialize { kind with schema := schema } raw s = materialize kind raw s := by
  obtain ⟨huser, hcourse, hassignment, hfields⟩ :=
    (Schema.unmarked_eq_iff schema kind.schema).1 hunmarked
  have hvalid := Schema.validate_congr hunmarked hmarkers
  have hresolve : ∀ context, resolve schema context s.backend =
      resolve kind.schema context s.backend := by
    intro context
    rw [resolve, resolve, hcourse, hassignment]
  have hadmit : ∀ context course, admitSender schema s.backend s.nonces context course =
      admitSender kind.schema s.backend s.nonces context course := by
    intro context course
    simp only [admitSender, huser, authorize_congr hmarkers]
  simp only [materialize, unread, complete, hvalid, hresolve, hadmit, hfields]

theorem materialize_of_subset {kind : RequestKind R} {schema : Schema}
    (hunmarked : schema.unmarked = kind.schema.unmarked)
    (hsubset : ∀ role ∈ kind.schema.markers, role ∈ schema.markers) {raw : RawRequest}
    {s u : Server} {m : Materialized R}
    (h : materialize { kind with schema := schema } raw s = (.ok m, u)) :
    materialize kind raw s = (.ok m, u) := by
  obtain ⟨r, context, nonces, hdecode, hvalid, hresolve, hadmit, hcomplete⟩ := materialize_eq_ok h
  obtain ⟨-, hcourse, hassignment, hfields⟩ :=
    (Schema.unmarked_eq_iff schema kind.schema).1 hunmarked
  have hdecode' : decodeText? kind.decode raw.content = some (r, context) := hdecode
  have hvalid' : kind.schema.validate = .ok () :=
    Schema.validate_of_subset (u := schema) hvalid hunmarked.symm hsubset
  have hresolve' : resolve kind.schema context s.backend = .ok (m.course, m.assignment) := by
    rw [← hresolve]
    simp only [resolve, hcourse, hassignment]
  have hadmit' : admitSender kind.schema s.backend s.nonces context m.course =
      (.ok m.identity, nonces) :=
    admitSender_of_subset (u := schema) hadmit hunmarked.symm hsubset
  rw [materialize_of_resolved hdecode' hvalid' hresolve', hadmit']
  simp only [complete, hfields] at hcomplete ⊢
  exact hcomplete

end Request

namespace Registry

/-- A route is taken in if its schema makes sense and its endpoint is free. -/
theorem register_eq_ok {t taken : Registry} {r : Route} (h : t.register r = .ok taken) :
    r.schema.validate = .ok () ∧ t.resolve? r.endpoint = none ∧
      taken = t.insert r.endpoint r := by
  rw [register] at h
  split at h
  · cases h
  · next hvalid =>
    split at h
    · cases h
    · next hfree =>
      refine ⟨hvalid, ?_, (Except.ok.inj h).symm⟩
      simpa [Table.contains, resolve?] using hfree

end Registry

open Request in
/-- **Authorization is sound, and asks for nothing else.**  Take a request type whose schema is
built from any clauses and that is registered with any handler.

* A request gets to the handler only if, for every marker, it runs as somebody who was identified
  and whose role in the course of the request meets the marker (`RunsWithRole`); any other request
  is refused, whatever the handler.
* A request whose sender was `Identified` fails for lack of permission exactly if the sender lacks a
  role that is declared (as long as the type does not give this answer itself when its fields are
  filled).
* Repeating and moving markers changes nothing, and more of them let through no more. -/
theorem markers_decide {R : Type} {kind : RequestKind R} {clauses : List Schema.Clause}
    (hschema : kind.schema = .build clauses) {endpoint : String}
    {handler : Materialized R → Server → Reply × Server} {registry taken : Registry}
    (hregistered : registry.register (.of endpoint kind handler) = .ok taken) (raw : RawRequest)
    (s : Server) :
    (∀ m u, materialize kind raw s = (.ok m, u) →
      ∀ role, .marker role ∈ clauses → RunsWithRole kind raw s m role) ∧
    (∀ f u, materialize kind raw s = (.error f, u) →
      ∀ handler, (Route.of endpoint kind handler).call raw s = (.refused f, u)) ∧
    (∀ i, Identified kind raw s i → ∀ role, .marker role ∈ clauses → i.hasRole role = false →
      (materialize kind raw s).1 = .error .permissionDenied) ∧
    (∀ i, Identified kind raw s i →
      (∀ r name value f, kind.hydrate r name value = .error f → f.locator ≠ .permissionDenied) →
      ∀ f, (materialize kind raw s).1 = .error f → f.locator = .permissionDenied →
        ∃ role, .marker role ∈ clauses ∧ i.hasRole role = false) ∧
    (∀ others, Schema.plain others = Schema.plain clauses →
      (∀ role, .marker role ∈ others ↔ .marker role ∈ clauses) →
      materialize { kind with schema := .build others } raw s = materialize kind raw s) ∧
    (∀ others, Schema.plain others = Schema.plain clauses →
      (∀ role, .marker role ∈ clauses → .marker role ∈ others) →
      ∀ m u, materialize { kind with schema := .build others } raw s = (.ok m, u) →
        materialize kind raw s = (.ok m, u)) := by
  have hnested : kind.schema.Nested := hschema ▸ Schema.nested_build clauses
  have hvalid : kind.schema.validate = .ok () := (Registry.register_eq_ok hregistered).1
  have hmem : ∀ role, role ∈ kind.schema.markers ↔ .marker role ∈ clauses := fun role =>
    hschema ▸ Schema.mem_markers_build_iff clauses role
  refine ⟨?_, ?_, ?_, ?_, ?_, ?_⟩
  · intro m u h role hrole
    exact runsWithRole_of_materialize hnested h ((hmem role).2 hrole)
  · intro f u h handler
    simp only [Route.of, Route.run, h]
  · intro i hi role hrole hlacks
    exact materialize_of_lacking hnested hvalid hi ((hmem role).2 hrole) hlacks
  · intro i hi hhydrate f hf hlocator
    rcases Classical.em (∃ role, .marker role ∈ clauses ∧ i.hasRole role = false) with
      hlacks | hmeets
    · exact hlacks
    · refine absurd hlocator (locator_of_meeting hvalid hhydrate hi (fun role hrole => ?_) hf)
      rcases Bool.eq_false_or_eq_true (i.hasRole role) with h | h
      · exact h
      · exact absurd ⟨role, (hmem role).1 hrole, h⟩ hmeets
  · intro others hplain hsame
    refine materialize_congr ?_ (fun role => ?_) raw s
    · rw [hschema, Schema.unmarked_build_congr hplain]
    · rw [Schema.mem_markers_build_iff, hmem, hsame]
  · intro others hplain hmore m u h
    refine materialize_of_subset ?_ (fun role hrole => ?_) h
    · rw [hschema, Schema.unmarked_build_congr hplain]
    · exact (Schema.mem_markers_build_iff others role).2 (hmore role ((hmem role).1 hrole))

def trustingServer : Server :=
  { Server.start { Store.empty with courses := Table.empty.insert "cs1" ⟨"cs1", ""⟩ } ⟨0, 0⟩
      .foreseeable (.generous 0) .empty "/uploads" with nonces := ⟨["n"]⟩ }

/-- A request for the roster of the course that shows the nonce of `trustingServer`. -/
def rosterByNonce : RawRequest :=
  ⟨"\x7b\"course-id\": \" CS1\", \"root-user-nonce\": \"n\"\x7d", []⟩

open Endpoint Request in
/-- The roster is shown to the trusted caller, whose server role counts as that of an owner. -/
theorem markers_decide_roster :
    ∃ m u, materialize rosterKind rosterByNonce trustingServer = (.ok m, u) ∧
      RunsWithRole rosterKind rosterByNonce trustingServer m .grader := by
  have hregistered : ∃ taken, Registry.register Table.empty
      (Route.of "/roster" rosterKind fun m s => (.ofContent (.ok (listUsers m)), s)) =
        .ok taken := ⟨_, rfl⟩
  have hpassed : ∃ m u, materialize rosterKind rosterByNonce trustingServer = (.ok m, u) :=
    ⟨_, _, rfl⟩
  obtain ⟨taken, htaken⟩ := hregistered
  obtain ⟨m, u, hm⟩ := hpassed
  have hschema : rosterKind.schema =
      .build [.course, .marker .grader, .field ⟨"users", .roster, true⟩] := rfl
  obtain ⟨hruns, -⟩ := markers_decide hschema htaken rosterByNonce trustingServer
  exact ⟨m, u, hm, hruns m u hm .grader (by simp)⟩

end Coursework
