import Coursework.Proofs.Authorization
import Coursework.Proofs.Hall.Basic
import Coursework.Proofs.Request.Traces

/-!
# Which routes a registry holds

Routes come to a registry one by one or several at once, in any number of calls, and any of them may
be refused.  All that the calls come to is a list, of the routes that were tried
(`Registry.attempts`), and the registry holds of it, under each endpoint, the first route whose
schema makes sense (`Registry.Holds`).

Whether the schema of a route makes sense is asked when the route is registered and again for each
of its requests, and the answer is the same.  So a request to a route that is in the registry does
not fail for reason of its schema (`Request.locator_of_materialize`).
-/

set_option autoImplicit false

namespace Coursework

open Json

/-! ## Schemas that make no sense -/

/-- The locators -310, -311, -312 and -314, with which `Schema.validate` says that a schema makes no
sense. -/
def Locator.ofSchema : List Locator :=
  [roleWithoutCourse, rosterWithoutCourse, rosterNotSettable, filesNotSettable]

example : Locator.ofSchema.map Locator.code = ["-310", "-311", "-312", "-314"] := rfl

namespace Schema

theorem locator_of_checkField {needsCourse : Bool} {field : ServerField} {f : Fault}
    (h : checkField needsCourse field = .error f) : f.locator ∈ Locator.ofSchema := by
  rw [checkField] at h
  split at h
  · split at h
    · cases h
      simp [Fault.locator, Locator.ofSchema]
    · split at h <;> cases h
      simp [Fault.locator, Locator.ofSchema]
  · split at h <;> cases h
    simp [Fault.locator, Locator.ofSchema]

theorem locator_of_checkFields {needsCourse : Bool} {fields : List ServerField} {f : Fault}
    (h : checkFields needsCourse fields = .error f) : f.locator ∈ Locator.ofSchema := by
  induction fields with
  | nil => cases h
  | cons field rest ih =>
    rw [checkFields] at h
    split at h
    · next hfield =>
      cases h
      exact locator_of_checkField hfield
    · exact ih h

theorem locator_of_validate {s : Schema} {f : Fault} (h : s.validate = .error f) :
    f.locator ∈ Locator.ofSchema := by
  rw [validate] at h
  split at h
  · cases h
    simp [Fault.locator, Locator.ofSchema]
  · exact locator_of_checkFields h

theorem checkField_of_checkFields {needsCourse : Bool} {fields : List ServerField}
    (h : checkFields needsCourse fields = .ok ()) {field : ServerField} (hfield : field ∈ fields) :
    checkField needsCourse field = .ok () := by
  induction fields with
  | nil => cases hfield
  | cons first rest ih =>
    rw [checkFields] at h
    split at h
    · cases h
    · next hfirst =>
      obtain rfl | hrest := List.mem_cons.1 hfield
      · exact hfirst
      · exact ih h hrest

theorem needsCourse_of_roster {s : Schema} (h : s.validate = .ok ()) {field : ServerField}
    (hfield : field ∈ s.fields) (hkind : field.kind = .roster) : s.needsCourse = true := by
  have hcheck := checkField_of_checkFields ((validate_eq_ok_iff s).1 h).2 hfield
  rw [checkField, hkind] at hcheck
  cases hneeds : s.needsCourse with
  | true => rfl
  | false =>
    rw [hneeds] at hcheck
    dsimp only at hcheck
    split at hcheck <;> cases hcheck

end Schema

namespace Request

variable {R : Type}

/-- A request of a kind whose schema makes no sense comes to nothing but that, as soon as its text
can be read. -/
theorem materialize_of_invalid {kind : RequestKind R} {f : Fault}
    (hinvalid : kind.schema.validate = .error f) {raw : RawRequest}
    (hread : (decodeText? kind.decode raw.content).isSome = true) (s : Server) :
    materialize kind raw s = (.error f, s) := by
  obtain ⟨⟨r, context⟩, hdecode⟩ := Option.isSome_iff_exists.1 hread
  simp only [materialize, hdecode, hinvalid]

/-- A field that makes sense is filled, or fails for a reason that is none of `Locator.ofSchema`. -/
theorem locator_of_fieldValue_of_course {b : Backend} {root : String} {course : Option Course}
    {files : List Upload} {disk : Disk} {field : ServerField}
    (hcourse : field.kind = .roster → ∃ c, course = some c) {f : Fault}
    (h : (fieldValue b root course files disk field).1 = .error f) :
    f.locator ∉ Locator.ofSchema := by
  obtain ⟨hkind, -, ⟨hnone, -⟩ | ⟨_, _, -, -, rfl⟩⟩ | ⟨-, hstore⟩ :=
    fieldValue_eq_error (Prod.ext h rfl)
  · obtain ⟨c, hc⟩ := hcourse hkind
    exact absurd (hc.symm.trans hnone) (Option.some_ne_none c)
  · simp [Fault.locator, Locator.ofSchema]
  · rcases locator_of_store (congrArg Prod.fst hstore) with hnone | hfailed
    · rw [hnone]
      decide
    · rw [hfailed]
      decide

/-- **Under a schema that makes sense no request fails because it does not**, unless its type itself
says so when a field is filled. -/
theorem locator_of_materialize {kind : RequestKind R} (hvalid : kind.schema.validate = .ok ())
    {raw : RawRequest} {s : Server} {f : Fault} (h : (materialize kind raw s).1 = .error f) :
    f.locator ∉ Locator.ofSchema ∨ ∃ r name value, kind.hydrate r name value = .error f := by
  rw [materialize] at h
  split at h
  · cases h
    exact .inl (by simp [unread, Fault.locator, Locator.ofSchema])
  next r context hdecode =>
  rw [hvalid] at h
  dsimp only at h
  split at h
  · next hresolve =>
    cases h
    left
    obtain hearly | hstore := locator_of_resolve hresolve
    · have hnone : ∀ l ∈ Locator.beforeSender, l ∉ Locator.ofSchema := by decide
      exact hnone _ hearly
    · rw [hstore]
      decide
  next course assignment hresolve =>
  split at h
  · next hadmit =>
    cases h
    have hnone : ∀ l ∈ Locator.atSender, l ∉ Locator.ofSchema := by decide
    exact .inl (hnone _ (locator_of_admitSender (congrArg Prod.fst hadmit)))
  next identity nonces hadmit =>
  rw [complete] at h
  split at h
  · next hfilled =>
    cases h
    -- Only here a schema has a say again, and a roster has its course since the schema makes sense.
    refine (fillFields_eq_error hfilled).imp_left ?_
    rintro ⟨disk, field, hfield, hvalue⟩
    refine locator_of_fieldValue_of_course (fun hkind => ?_) hvalue
    have hneeds := Schema.needsCourse_of_roster hvalid hfield hkind
    obtain ⟨c, -, hc⟩ := findCourse_of_resolve hresolve hneeds
    exact ⟨c, hc⟩
  · cases h

end Request

namespace Endpoint.Shipped

/-- The types of request that every server has (`Shipped`) give no reason of their own but that a
field is not theirs. -/
theorem internal_of_hydrate (e : Shipped) {r : e.Body} {name : String} {value : FieldValue}
    {f : Fault} (h : e.kind.hydrate r name value = .error f) : ∃ text, f = .internal text := by
  cases e with
  | auth | password | peek | history =>
    cases h
    exact ⟨_, rfl⟩
  | roster =>
    cases value with
    | roster entries =>
      dsimp only [kind, rosterKind] at h
      split at h <;> cases h
      exact ⟨_, rfl⟩
    | files set =>
      cases h
      exact ⟨_, rfl⟩
  | submit =>
    cases value with
    | roster entries =>
      cases h
      exact ⟨_, rfl⟩
    | files set =>
      dsimp only [kind, submitKind] at h
      split at h <;> cases h
      exact ⟨_, rfl⟩

end Endpoint.Shipped

/-- A route serves an endpoint: it is for it, and its schema makes sense. -/
def Route.Serves (r : Route) (endpoint : String) : Prop :=
  r.endpoint = endpoint ∧ r.schema.validate = .ok ()

instance (r : Route) (endpoint : String) : Decidable (r.Serves endpoint) :=
  inferInstanceAs (Decidable (_ ∧ _))

namespace Registry

/-! ## Calls -/

/-- A call that registers routes: one by itself (`register`), or several together
(`registerAll`). -/
inductive Call where
  | one (r : Route)
  | several (rs : List Route)

/-- What a call answers, and the registry after it. -/
def perform (t : Registry) : Call → Except RegistryError Unit × Registry
  | .one r =>
    match t.register r with
    | .error e => (.error e, t)
    | .ok taken => (.ok (), taken)
  | .several rs => t.registerAll rs

def performAll (t : Registry) (calls : List Call) : Registry :=
  calls.foldl (fun t call => (t.perform call).2) t

/-- A route can be taken in after others were tried: its schema makes sense, and none of the others
`Serves` its endpoint. -/
def Admissible (tried : List Route) (r : Route) : Prop :=
  r.schema.validate = .ok () ∧ ∀ q ∈ tried, ¬ q.Serves r.endpoint

instance (tried : List Route) (r : Route) : Decidable (Admissible tried r) :=
  inferInstanceAs (Decidable (_ ∧ _))

/-- Of routes that are registered together, those that are tried: up to the first that is not
`Admissible`, which is tried and refused. -/
def attemptsOf (tried : List Route) : List Route → List Route
  | [] => []
  | r :: rest => r :: if Admissible tried r then attemptsOf (tried ++ [r]) rest else []

/-- The routes that were tried before, and those that `calls` try. -/
def attempts (tried : List Route) : List Call → List Route
  | [] => tried
  | .one r :: rest => attempts (tried ++ [r]) rest
  | .several rs :: rest => attempts (tried ++ attemptsOf tried rs) rest

/-! ## The first route stays -/

/-- A registry holds the first route that serves an endpoint, of those that were tried. -/
def Holds (t : Registry) (tried : List Route) : Prop :=
  ∀ endpoint, t.resolve? endpoint = tried.find? fun r => r.Serves endpoint

theorem holds_empty : Holds Table.empty [] :=
  fun _ => rfl

namespace Holds

variable {t : Registry} {tried : List Route} (h : t.Holds tried) {r : Route}
include h

theorem contains_iff (endpoint : String) :
    t.contains endpoint = true ↔ ∃ q ∈ tried, q.Serves endpoint := by
  have hresolve := h endpoint
  rw [resolve?] at hresolve
  rw [Table.contains, hresolve, List.find?_isSome]
  simp only [decide_eq_true_eq]

theorem register_of_admissible (hr : Admissible tried r) :
    t.register r = .ok (t.insert r.endpoint r) := by
  have hfree : ¬ t.contains r.endpoint = true := fun htaken => by
    obtain ⟨q, hq, hserves⟩ := (h.contains_iff r.endpoint).1 htaken
    exact hr.2 q hq hserves
  simp only [register, hr.1, if_neg hfree]

theorem register_of_not_admissible (hr : ¬ Admissible tried r) : ∃ e, t.register r = .error e := by
  rw [register]
  split
  · exact ⟨_, rfl⟩
  · next hvalid =>
    by_cases htaken : t.contains r.endpoint = true
    · exact ⟨_, if_pos htaken⟩
    · refine absurd ⟨hvalid, fun q hq hserves => htaken ?_⟩ hr
      exact (h.contains_iff r.endpoint).2 ⟨q, hq, hserves⟩

theorem insert (hr : Admissible tried r) : Holds (t.insert r.endpoint r) (tried ++ [r]) := by
  intro endpoint
  rw [resolve?, Table.find?_insert, List.find?_append]
  split
  · next hown =>
    have hnone : tried.find? (fun q => q.Serves endpoint) = none :=
      List.find?_eq_none.2 fun q hq => by simpa [hown] using hr.2 q hq
    have hserves : r.Serves endpoint := ⟨hown.symm, hr.1⟩
    simp [hnone, hserves]
  · next hother =>
    have hserves : ¬ r.Serves endpoint := fun hserves => hother hserves.1.symm
    have hresolve := h endpoint
    rw [resolve?] at hresolve
    simp [hresolve, hserves]

theorem skip (hr : ¬ Admissible tried r) : t.Holds (tried ++ [r]) := by
  intro endpoint
  rw [h endpoint, List.find?_append]
  cases hfound : tried.find? (fun q => q.Serves endpoint) with
  | some q => rfl
  | none =>
    -- If it served an endpoint that nobody serves yet, it would have been taken in.
    have hserves : ¬ r.Serves endpoint := by
      rintro ⟨rfl, hvalid⟩
      refine hr ⟨hvalid, fun q hq => ?_⟩
      simpa using List.find?_eq_none.1 hfound q hq
    simp [hserves]

end Holds

theorem Holds.registerAll {t : Registry} {tried : List Route} (h : t.Holds tried)
    (rs : List Route) : (t.registerAll rs).2.Holds (tried ++ attemptsOf tried rs) := by
  induction rs generalizing t tried with
  | nil => simpa [Registry.registerAll, attemptsOf] using h
  | cons r rest ih =>
    rw [Registry.registerAll, attemptsOf]
    split_ifs with hr
    · simp only [h.register_of_admissible hr]
      simpa using ih (h.insert hr)
    · obtain ⟨e, he⟩ := h.register_of_not_admissible hr
      simp only [he]
      exact h.skip hr

theorem Holds.one {t : Registry} {tried : List Route} (h : t.Holds tried) (r : Route) :
    (t.perform (.one r)).2.Holds (tried ++ [r]) := by
  by_cases hr : Admissible tried r
  · simp only [perform, h.register_of_admissible hr]
    exact h.insert hr
  · obtain ⟨e, he⟩ := h.register_of_not_admissible hr
    simp only [perform, he]
    exact h.skip hr

/-- **Whatever the calls, the first route that serves an endpoint is the one that is held.** -/
theorem Holds.performAll {t : Registry} {tried : List Route} (h : t.Holds tried)
    (calls : List Call) : (t.performAll calls).Holds (attempts tried calls) := by
  induction calls generalizing t tried with
  | nil => exact h
  | cons call rest ih =>
    cases call with
    | one r => exact ih (h.one r)
    | several rs => exact ih (h.registerAll rs)

/-! ## Several routes at once -/

/-- Of routes that are registered together, those in front were taken in and no other.  The one
behind them was refused, if there is one. -/
structure StopsAt (t : Registry) (front back : List Route) (answer : Except RegistryError Unit)
    (left : Registry) : Prop where
  taken : t.registerAll front = (.ok (), left)
  resolve : ∀ endpoint r, left.resolve? endpoint = some r ↔
    t.resolve? endpoint = some r ∨ r ∈ front ∧ r.endpoint = endpoint
  stopped : match back with
    | [] => answer = .ok ()
    | r :: _ => ∃ e, left.register r = .error e ∧ answer = .error e

theorem resolve?_of_register {t taken : Registry} {r : Route} (h : t.register r = .ok taken)
    (endpoint : String) (q : Route) : taken.resolve? endpoint = some q ↔
      t.resolve? endpoint = some q ∨ q = r ∧ q.endpoint = endpoint := by
  obtain ⟨-, hfree, rfl⟩ := register_eq_ok h
  rw [resolve?] at hfree
  rw [resolve?, resolve?, Table.find?_insert]
  split
  · next hown =>
    rw [hown, hfree]
    simp only [Option.some.injEq, reduceCtorEq, false_or]
    exact ⟨fun hq => ⟨hq.symm, by rw [hq]⟩, fun hq => hq.1.symm⟩
  · next hother =>
    refine ⟨.inl, ?_⟩
    rintro (hq | ⟨rfl, hendpoint⟩)
    · exact hq
    · exact absurd hendpoint.symm hother

/-- **Routes that are registered together stay up to the first that is refused**, and none behind
that one is tried. -/
theorem Holds.stopsAt_registerAll {t : Registry} {tried : List Route} (h : t.Holds tried)
    (rs : List Route) : ∃ front back, rs = front ++ back ∧
      attemptsOf tried rs = front ++ back.take 1 ∧
      t.StopsAt front back (t.registerAll rs).1 (t.registerAll rs).2 := by
  induction rs generalizing t tried with
  | nil => exact ⟨[], [], rfl, rfl, rfl, by simp [Registry.registerAll], rfl⟩
  | cons r rest ih =>
    by_cases hr : Admissible tried r
    · have hregister := h.register_of_admissible hr
      obtain ⟨front, back, rfl, htried, htaken, hresolve, hstopped⟩ := ih (h.insert hr)
      refine ⟨r :: front, back, rfl, ?_, ?_, fun endpoint q => ?_, ?_⟩
      · rw [attemptsOf, if_pos hr, htried]
        rfl
      · simp only [Registry.registerAll, hregister, htaken]
      · simp only [Registry.registerAll, hregister, hresolve, resolve?_of_register hregister,
          List.mem_cons]
        rw [or_and_right, or_assoc]
      · simp only [Registry.registerAll, hregister]
        exact hstopped
    · obtain ⟨e, he⟩ := h.register_of_not_admissible hr
      refine ⟨[], r :: rest, rfl, ?_, ?_, ?_, ?_⟩
      · rw [attemptsOf, if_neg hr]
        rfl
      · simp only [Registry.registerAll, he]
      · simp [Registry.registerAll, he]
      · simp only [Registry.registerAll, he]
        exact ⟨e, rfl, rfl⟩

/-! ## The list of endpoints -/

theorem mem_endpoints_iff (t : Registry) (endpoint : String) :
    endpoint ∈ t.endpoints ↔ ∃ r, t.resolve? endpoint = some r := by
  rw [endpoints, List.mem_mergeSort, Table.mem_keys_iff]
  rfl

theorem endpoints_increase (t : Registry) : t.endpoints.Pairwise (· < ·) := by
  have hkeys : (t.keys.map id).Nodup := by
    rw [List.map_id]
    exact t.nodup
  simpa only [endpoints, List.map_id, id_eq] using increasing_mergeSort hkeys

theorem length_endpoints (t : Registry) : t.endpoints.length = t.size := by
  rw [endpoints, List.length_mergeSort, Table.keys, List.length_map, Table.size]

/-! ## What is held, and what is asked again -/

/-- Whoever comes first is served: what a registry holds of the routes that were tried.  Under an
endpoint stands the first route that `Serves` it (`resolve`); a route that is refused leaves the
registry as it is (`refused`); of several routes those before the first that is refused are kept,
and none behind it is tried (`together`); and no endpoint is listed twice, since they are
`increasing`. -/
structure FirstServed (t : Registry) (tried : List Route) : Prop where
  resolve : ∀ endpoint, t.resolve? endpoint = tried.find? fun r => r.Serves endpoint
  refused : ∀ r e, (t.perform (.one r)).1 = .error e → (t.perform (.one r)).2 = t
  together : ∀ rs, ∃ front back, rs = front ++ back ∧
    attemptsOf tried rs = front ++ back.take 1 ∧
    t.StopsAt front back (t.perform (.several rs)).1 (t.perform (.several rs)).2
  listed : ∀ endpoint, endpoint ∈ t.endpoints ↔ ∃ r, t.resolve? endpoint = some r
  increasing : t.endpoints.Pairwise (· < ·)
  size : t.endpoints.length = t.size

theorem Holds.firstServed {t : Registry} {tried : List Route} (h : t.Holds tried) :
    t.FirstServed tried where
  resolve := h
  refused r e he := by
    rw [perform] at he ⊢
    split at he
    · rfl
    · cases he
  together := h.stopsAt_registerAll
  listed := t.mem_endpoints_iff
  increasing := t.endpoints_increase
  size := t.length_endpoints

/-- **The first valid route stays.**  Take any calls on a registry that is empty.

* It holds, under each endpoint, the first of the routes that were tried and whose schema makes
  sense (`FirstServed`).  A refused route changes nothing, several routes are kept up to the first
  that is refused, and the endpoints are listed once each and in order.
* A route whose schema makes no sense is refused by any registry, with the fault that every request
  that can be read meets under this schema.
* So no request to a route that is held meets one of these faults, as long as its schema is still
  the one that it was registered with, unless its own type makes up such an answer when a field is
  filled.  None of the types that every server has does (`Endpoint.Shipped`). -/
theorem first_valid_route_stays (calls : List Call) :
    (performAll Table.empty calls).FirstServed (attempts [] calls) ∧
    (∀ (t : Registry) r f, r.schema.validate = .error f →
      t.register r = .error (.invalidSchema r.endpoint f) ∧ f.locator ∈ Locator.ofSchema ∧
      ∀ (R : Type) (kind : RequestKind R), kind.schema = r.schema →
        ∀ raw s, (decodeText? kind.decode raw.content).isSome = true →
          Request.materialize kind raw s = (.error f, s)) ∧
    ∀ endpoint r, (performAll Table.empty calls).resolve? endpoint = some r →
      (∀ (R : Type) (kind : RequestKind R), kind.schema = r.schema →
        ∀ raw s f, (Request.materialize kind raw s).1 = .error f →
          f.locator ∉ Locator.ofSchema ∨ ∃ q name value, kind.hydrate q name value = .error f) ∧
      ∀ e : Endpoint.Shipped, e.kind.schema = r.schema →
        ∀ raw s f, (Request.materialize e.kind raw s).1 = .error f →
          f.locator ∉ Locator.ofSchema := by
  have hholds := holds_empty.performAll calls
  refine ⟨hholds.firstServed, fun t r f hinvalid => ⟨?_, Schema.locator_of_validate hinvalid, ?_⟩,
    fun endpoint r hr => ?_⟩
  · simp only [register, hinvalid]
  · intro R kind hschema raw s hread
    exact Request.materialize_of_invalid (hschema ▸ hinvalid) hread s
  · rw [hholds endpoint] at hr
    have hserves : r.Serves endpoint := by simpa using List.find?_some hr
    refine ⟨fun R kind hschema raw s f hf => ?_, fun e hschema raw s f hf => ?_⟩
    · exact Request.locator_of_materialize (hschema ▸ hserves.2) hf
    · obtain hother | ⟨q, name, value, hown⟩ :=
        Request.locator_of_materialize (hschema ▸ hserves.2) hf
      · exact hother
      · obtain ⟨text, rfl⟩ := e.internal_of_hydrate hown
        simp [Fault.locator, Locator.ofSchema]

/-- A request that has nothing of its own and asks for what these clauses say. -/
def bareKind (clauses : List Schema.Clause) : RequestKind Unit :=
  { Endpoint.authKind with schema := .build clauses }

def asking (endpoint : String) (clauses : List Schema.Clause) : Route :=
  .of endpoint (bareKind clauses) fun _ s => (.content .null, s)

/-- A route that asks for a role in no course, one that would do, another for the same endpoint, and
one that comes too late. -/
def someCalls : List Call :=
  [.one (asking "/ping" [.user, .marker .grader]),
    .several [asking "/ping" [.user], asking "/ping" [], asking "/late" [.user]]]

/-- The second one is held and the others are not.  The first one is refused as its requests would
be, and the requests of the second fail for other reasons. -/
theorem first_valid_route_stays_some :
    (performAll Table.empty someCalls).resolve? "/ping" = some (asking "/ping" [.user]) ∧
      (performAll Table.empty someCalls).resolve? "/late" = none ∧
      register Table.empty (asking "/ping" [.user, .marker .grader]) =
        .error (.invalidSchema "/ping" .roleWithoutCourse) ∧
      Request.materialize (bareKind [.user, .marker .grader]) ⟨"\x7b\x7d", []⟩ trustingServer =
        (.error .roleWithoutCourse, trustingServer) ∧
      ∃ f, (Request.materialize Endpoint.authKind ⟨"\x7b\x7d", []⟩ trustingServer).1 = .error f ∧
        f.locator ∉ Locator.ofSchema := by
  obtain ⟨hserved, hinvalid, hvalid⟩ := first_valid_route_stays someCalls
  have hping : (performAll Table.empty someCalls).resolve? "/ping" =
      some (asking "/ping" [.user]) :=
    (hserved.resolve "/ping").trans rfl
  obtain ⟨hrefused, -, hmeets⟩ :=
    hinvalid Table.empty (asking "/ping" [.user, .marker .grader]) .roleWithoutCourse rfl
  have hfails : (Request.materialize Endpoint.authKind ⟨"\x7b\x7d", []⟩ trustingServer).1 =
      .error .missingUserEmail := rfl
  exact ⟨hping, (hserved.resolve "/late").trans rfl, hrefused, hmeets Unit _ rfl _ _ rfl, _, hfails,
    (hvalid "/ping" _ hping).2 .auth rfl _ _ _ hfails⟩

end Registry
end Coursework
