import Coursework.Endpoint.Bench
import Coursework.Proofs.Authorization
import Coursework.Proofs.Request.Merged

/-!
# Ordinary routes

Most of what can be said of a request as it travels does not depend on what its handler does.  It
takes a route that reads its requests as merged records, leaves the nonces alone, and answers with
content that a document may hold (`Route.Ordinary`).  The six routes of every server are of this
kind, and so are probes, so that every registry consists of such routes
(`Endpoint.ordinary_shippedRegistry`, `Endpoint.Bench.ordinary_registry`).
-/

set_option autoImplicit false

namespace Coursework

open Json

/-- A route reads its requests as merged records (`Decode.merged?`), has no handler that touches the
nonces, and answers with content that can stand in an envelope. -/
def Route.Ordinary (route : Route) : Prop :=
  ∃ (R : Type) (kind : RequestKind R) (handler : Materialized R → Server → Reply × Server),
    route.call = Route.run kind handler ∧ kind.IsMerged ∧
      (∀ m s, (handler m s).2.nonces = s.nonces) ∧
      ∀ m s v, (handler m s).1 = .content v → v.Shaped (depthLimit - 1)

theorem Route.ordinary_of {R : Type} {endpoint : String} {kind : RequestKind R}
    {handler : Materialized R → Server → Reply × Server} (hkind : kind.IsMerged)
    (hnonces : ∀ m s, (handler m s).2.nonces = s.nonces)
    (hshaped : ∀ m s v, (handler m s).1 = .content v → v.Shaped (depthLimit - 1)) :
    (Route.of endpoint kind handler).Ordinary :=
  ⟨R, kind, handler, rfl, hkind, hnonces, hshaped⟩

def Registry.Ordinary (t : Registry) : Prop :=
  ∀ endpoint route, t.resolve? endpoint = some route → route.Ordinary

namespace Registry.Ordinary

theorem empty : Registry.Ordinary Table.empty := fun _ _ h => nomatch h

theorem insert {t : Registry} (h : t.Ordinary) {route : Route} (hroute : route.Ordinary)
    (endpoint : String) : Registry.Ordinary (t.insert endpoint route) := by
  intro e r hr
  rw [resolve?, Table.find?_insert] at hr
  split at hr
  · cases hr
    exact hroute
  · exact h e r hr

theorem register {t u : Registry} (h : t.Ordinary) {route : Route} (hroute : route.Ordinary)
    (hu : t.register route = .ok u) : u.Ordinary := by
  obtain ⟨-, -, rfl⟩ := register_eq_ok hu
  exact h.insert hroute _

theorem registerAll {t : Registry} (h : t.Ordinary) {routes : List Route}
    (hroutes : ∀ route ∈ routes, route.Ordinary) : (t.registerAll routes).2.Ordinary := by
  induction routes generalizing t with
  | nil => exact h
  | cons route rest ih =>
    obtain ⟨hroute, hrest⟩ := List.forall_mem_cons.1 hroutes
    rw [Registry.registerAll]
    split
    · exact h
    · next hu => exact ih (h.register hroute hu) hrest

end Registry.Ordinary

theorem Reply.shaped_of_ofContent {written : Except Time.Unwritable Value} {room : Nat}
    (h : ∀ v, written = .ok v → v.Fits room) {v : Value}
    (hv : Reply.ofContent written = .content v) : v.Shaped room := by
  cases written with
  | error part => cases hv
  | ok w =>
    cases hv
    exact Value.shaped_canonical (h w rfl)

theorem Reply.shaped_of_ofResult {α : Type} {answer : Except Fault α}
    {write : α → Except Time.Unwritable Value} {room : Nat}
    (h : ∀ a v, answer = .ok a → write a = .ok v → v.Fits room) {v : Value}
    (hv : Reply.ofResult (answer.map write) = .content v) : v.Shaped room := by
  cases answer with
  | error f => cases hv
  | ok a => exact Reply.shaped_of_ofContent (fun w hw => h a w rfl hw) hv

namespace Json.Decode

theorem byNames_const {R : Type} (own : List String) (r : Option R) : ByNames own fun _ => r :=
  fun _ _ _ => rfl

theorem orElse_congr {α : Type} {f g : Fields} {name : String} (h : f.lookup name = g.lookup name)
    (absent : α) (d : Decoder α) : f.orElse name absent d = g.orElse name absent d := by
  rw [Fields.orElse, Fields.orElse, h]

end Json.Decode

namespace Endpoint

open Json.Decode

/-! ## The routes of every server -/

theorem merged_authKind : authKind.IsMerged :=
  ⟨[], _, rfl, byNames_const _ _, by decide⟩

theorem merged_passwordKind : passwordKind.IsMerged := by
  refine ⟨["new-pass"], _, rfl, fun f g h => ?_, by decide⟩
  simp only [orElse_congr (h "new-pass" (by decide))]

theorem merged_rosterKind : rosterKind.IsMerged :=
  ⟨[], _, rfl, byNames_const _ _, by decide⟩

theorem merged_submitKind : submitKind.IsMerged := by
  refine ⟨["message", "allow-late"], _, rfl, fun f g h => ?_, by decide⟩
  simp only [orElse_congr (h "message" (by decide)), orElse_congr (h "allow-late" (by decide))]

theorem merged_peekKind : peekKind.IsMerged := by
  refine ⟨["target-email", "target-submission"], _, rfl, fun f g h => ?_, by decide⟩
  simp only [orElse_congr (h "target-email" (by decide)),
    orElse_congr (h "target-submission" (by decide))]

theorem merged_historyKind : historyKind.IsMerged := by
  refine ⟨["target-email"], _, rfl, fun f g h => ?_, by decide⟩
  simp only [orElse_congr (h "target-email" (by decide))]

/-! ### What they answer -/

theorem exists_of_bind {ε α β : Type} {x : Except ε α} {f : α → Except ε β} {b : β}
    (h : (x >>= f) = .ok b) : ∃ a, x = .ok a ∧ f a = .ok b := by
  cases x with
  | error e => cases h
  | ok a => exact ⟨a, rfl, h⟩

@[simp] theorem fits_courseRole (r : CourseRole) (room : Nat) : r.toJson.Fits room :=
  .string _ _

theorem fits_of_writeJson {g : Grade} {v : Value} (h : g.writeJson = .ok v) (room : Nat) :
    v.Fits (room + 1) := by
  obtain ⟨start, -, h⟩ := exists_of_bind h
  obtain ⟨finish, -, h⟩ := exists_of_bind h
  cases h
  exact .object (by simp)

theorem fits_of_writeGrades {grades : List Grade} {vs : List Value}
    (h : writeGrades grades = .ok vs)
    (room : Nat) : ∀ v ∈ vs, v.Fits (room + 1) := by
  induction grades generalizing vs with
  | nil =>
    cases h
    exact fun v hv => absurd hv List.not_mem_nil
  | cons g rest ih =>
    obtain ⟨w, hw, h⟩ := exists_of_bind h
    obtain ⟨ws, hws, h⟩ := exists_of_bind h
    cases h
    exact List.forall_mem_cons.2 ⟨fits_of_writeJson hw room, ih hws⟩

theorem fits_roster (entries : List RosterEntry) (room : Nat) :
    (Value.array (entries.map RosterEntry.toJson)).Fits (room + 2) := by
  refine .array fun v hv => ?_
  obtain ⟨entry, -, rfl⟩ := List.mem_map.1 hv
  exact .object (by simp [Value.Fits.optional])

theorem fits_auth {m : Materialized Unit} {v : Value} (h : auth m = .ok v) (room : Nat) :
    v.Fits (room + 1) := by
  rw [auth] at h
  split at h
  · cases h
  · cases h
    exact .object (by simp [Value.Fits.optional, ServerRole.toJson])

theorem fits_changePassword {m : Materialized PasswordChange} {s : Server} {v : Value}
    (h : (changePassword m s).1 = .ok v) (room : Nat) : v.Fits (room + 1) := by
  rw [changePassword] at h
  dsimp only at h
  split at h
  · cases h
  · split at h
    · cases h
    · cases h
      exact .object (by simp)

theorem fits_listUsers (m : Materialized (List RosterEntry)) (room : Nat) :
    (listUsers m).Fits (room + 3) :=
  .object (List.forall_mem_singleton.2 (fits_roster _ room))

theorem fits_submitAnswer {answer : SubmitAnswer} {v : Value} (h : answer.writeJson = .ok v)
    (room : Nat) : v.Fits (room + 2) := by
  cases answer with
  | rejected r =>
    cases h
    exact .object (by simp)
  | graded g =>
    obtain ⟨info, hinfo, h⟩ := exists_of_bind h
    cases h
    exact .object (by simp [fits_of_writeJson hinfo room])

theorem fits_peeked {p : Peeked} {v : Value} (h : p.writeJson = .ok v) (room : Nat) :
    v.Fits (room + 2) := by
  rw [Peeked.writeJson] at h
  split at h
  · obtain ⟨grade, hgrade, h⟩ := exists_of_bind h
    cases h
    exact .object (by simp [fits_of_writeJson hgrade room])
  · cases h
    exact .object (by simp)

theorem fits_history {p : History} {v : Value} (h : p.writeJson = .ok v) (room : Nat) :
    v.Fits (room + 3) := by
  obtain ⟨grades, hgrades, h⟩ := exists_of_bind h
  have hfits : (Value.array grades).Fits (room + 2) := .array (fits_of_writeGrades hgrades room)
  cases h
  exact .object (by simp [hfits])

/-! ### What they do to nonces -/

theorem nonces_changePassword (m : Materialized PasswordChange) (s : Server) :
    (changePassword m s).2.nonces = s.nonces := by
  rw [changePassword]
  dsimp only
  split
  · rfl
  · split <;> rfl

theorem wording_changePassword (m : Materialized PasswordChange) (s : Server) :
    (changePassword m s).2.wording = s.wording := by
  rw [changePassword]
  dsimp only
  split
  · rfl
  · split <;> rfl

theorem nonces_submitLocked (t : Ticket) (s : Server) : (submitLocked t s).2.nonces = s.nonces := by
  rw [submitLocked]
  split
  · rfl
  · dsimp only
    split
    · rfl
    · simp only [record, Server.grade, Server.advance]
      split
      · rfl
      · split <;> rfl

theorem nonces_submit (m : Materialized SubmitRequest) (s : Server) :
    (submit m s).2.nonces = s.nonces := by
  rw [submit]
  split
  · rfl
  · exact nonces_submitLocked _ _

/-! ### All six -/

theorem ordinary_authRoute : authRoute.Ordinary := by
  refine Route.ordinary_of merged_authKind (fun _ _ => rfl) fun m s v hv => ?_
  refine Reply.shaped_of_ofResult (fun w v hw hv => ?_) hv
  cases hv
  exact fits_auth hw 125

theorem ordinary_passwordRoute : passwordRoute.Ordinary := by
  refine Route.ordinary_of merged_passwordKind nonces_changePassword fun m s v hv => ?_
  refine Reply.shaped_of_ofResult (fun w v hw hv => ?_) hv
  cases hv
  exact fits_changePassword hw 125

theorem ordinary_rosterRoute : rosterRoute.Ordinary := by
  refine Route.ordinary_of merged_rosterKind (fun _ _ => rfl) fun m s v hv => ?_
  refine @Reply.shaped_of_ofContent (.ok (listUsers m)) _ (fun w hw => ?_) v hv
  cases hw
  exact fits_listUsers m 123

theorem ordinary_submitRoute : submitRoute.Ordinary := by
  refine Route.ordinary_of merged_submitKind nonces_submit fun m s v hv => ?_
  have hshown : Reply.ofAnswer (submit m s).1 = .content v := hv
  rcases hanswer : (submit m s).1 with f | a
  · rw [hanswer, Reply.ofAnswer] at hshown
    split at hshown <;> cases hshown
  · rw [hanswer] at hshown
    exact Reply.shaped_of_ofContent (fun w hw => fits_submitAnswer hw 124) hshown

theorem ordinary_peekRoute : peekRoute.Ordinary := by
  refine Route.ordinary_of merged_peekKind (fun _ _ => rfl) fun m s v hv => ?_
  exact Reply.shaped_of_ofResult (fun a w _ hw => fits_peeked hw 124) hv

theorem ordinary_historyRoute : historyRoute.Ordinary := by
  refine Route.ordinary_of merged_historyKind (fun _ _ => rfl) fun m s v hv => ?_
  exact Reply.shaped_of_ofResult (fun a w _ hw => fits_history hw 123) hv

/-- **The routes of every server are ordinary.** -/
theorem ordinary_shipped : ∀ route ∈ shipped, route.Ordinary := by
  simp only [shipped, List.forall_mem_cons, List.not_mem_nil, false_implies, implies_true, and_true]
  exact ⟨ordinary_authRoute, ordinary_passwordRoute, ordinary_rosterRoute, ordinary_submitRoute,
    ordinary_peekRoute, ordinary_historyRoute⟩

theorem ordinary_shippedRegistry : shippedRegistry.Ordinary :=
  Registry.Ordinary.empty.registerAll ordinary_shipped

/-! ## Probes -/

theorem merged_probeKind (schema : Schema) (plain : Bool) : (probeKind schema plain).IsMerged := by
  cases plain with
  | true => exact ⟨[], _, rfl, byNames_const _ _, by decide⟩
  | false =>
    refine ⟨["target-email"], _, rfl, fun f g h => ?_, by decide⟩
    simp only [orElse_congr (h "target-email" (by decide))]

theorem fits_identityToJson (i : Identity) (room : Nat) : (identityToJson i).Fits (room + 2) := by
  have hroles : (Value.array ((CourseRole.all.filter i.hasRole).map CourseRole.toJson)).Fits
      (room + 1) := by
    refine .array fun v hv => ?_
    obtain ⟨role, -, rfl⟩ := List.mem_map.1 hv
    exact fits_courseRole role room
  exact .object (by simp [Value.Fits.optional, ServerRole.toJson, hroles])

theorem fits_filesToJson (d : Disk) (set : UploadSet) (room : Nat) :
    (filesToJson d set).Fits (room + 2) := by
  refine .array fun v hv => ?_
  obtain ⟨file, -, rfl⟩ := List.mem_map.1 hv
  exact .object (by simp)

theorem fits_attemptLimit (l : AttemptLimit) (room : Nat) : l.toJson.Fits (room + 3) := by
  have hspan : ∀ d : Span, d.toJson.Fits (room + 1) := fun d => .object (by simp)
  have hwindow : ∀ w : WindowLimit, w.toJson.Fits (room + 2) := fun w =>
    .object (by simp [hspan])
  exact .object (by simp [Value.Fits.optional, hwindow])

theorem fits_latePolicy (p : LatePolicy) (room : Nat) : p.toJson.Fits (room + 1) :=
  .object (by simp [LateKind.toJson, Value.Fits.optional])

theorem fits_assignment {a : Assignment} {v : Value} (h : a.writeJson = .ok v) (room : Nat) :
    v.Fits (room + 4) := by
  rw [Assignment.writeJson] at h
  split at h
  · obtain ⟨dueDate, hdue, h⟩ := exists_of_bind h
    obtain ⟨text, -, hdue⟩ := exists_of_bind hdue
    cases hdue
    cases h
    exact .object (by simp [Value.Fits.optional, fits_attemptLimit, fits_latePolicy])
  · cases h
    exact .object (by simp [Value.Fits.optional, fits_attemptLimit, fits_latePolicy])

theorem fits_presentAll {m : Materialized ProbeRequest} {d : Disk} {v : Value}
    (h : presentAll m d = .ok v) (room : Nat) : v.Fits (room + 5) := by
  have hcourse : ∀ c : Course, c.toJson.Fits (room + 4) := fun c => .object (by simp)
  have horder : (Value.array (m.request.order.map .string)).Fits (room + 4) := by
    refine .array fun v hv => ?_
    obtain ⟨field, -, rfl⟩ := List.mem_map.1 hv
    exact .string _ _
  rw [presentAll] at h
  split at h
  · obtain ⟨w, hw, h⟩ := exists_of_bind h
    cases h
    exact .object (by simp [Value.Fits.optional, fits_identityToJson, fits_roster, fits_filesToJson,
      fits_assignment hw, hcourse, horder])
  · cases h
    exact .object (by simp [Value.Fits.optional, fits_identityToJson, fits_roster, fits_filesToJson,
      hcourse, horder])

theorem fits_presentPlain (m : Materialized ProbeRequest) (room : Nat) :
    (presentPlain m).Fits (room + 1) :=
  .object (by simp [Value.Fits.optional])

theorem eq_presentAll {m : Materialized ProbeRequest} {d : Disk}
    {written : Except Time.Unwritable Value} (h : presentNeeded m d = .ok written) :
    written = presentAll m d := by
  obtain ⟨-, -, h⟩ := exists_of_bind h
  obtain ⟨-, -, h⟩ := exists_of_bind h
  obtain ⟨-, -, h⟩ := exists_of_bind h
  cases h
  rfl

theorem fits_presentTarget {m : Materialized ProbeRequest} {b : Backend} {v : Value}
    (h : presentTarget m b = .ok v) (room : Nat) : v.Fits (room + 1) := by
  obtain ⟨target, -, h⟩ := exists_of_bind h
  cases h
  exact .object (by simp)

theorem shaped_probe {mode : ProbeMode} {plain : Bool} {m : Materialized ProbeRequest} {s : Server}
    {v : Value} (hv : (probe mode plain m s).1 = .content v) : v.Shaped (depthLimit - 1) := by
  cases plain with
  | true =>
    exact @Reply.shaped_of_ofContent (.ok (presentPlain m)) _
      (fun w hw => by cases hw; exact fits_presentPlain m 125) v hv
  | false =>
    cases mode with
    | present => exact Reply.shaped_of_ofContent (fun w hw => fits_presentAll hw 121) hv
    | need =>
      simp only [probe, Bool.false_eq_true, if_false] at hv
      cases hneeded : presentNeeded m s.disk with
      | error f =>
        rw [hneeded] at hv
        cases hv
      | ok written =>
        rw [hneeded, eq_presentAll hneeded] at hv
        exact Reply.shaped_of_ofContent (fun w hw => fits_presentAll hw 121) hv
    | target =>
      refine Reply.shaped_of_ofResult (fun w v hw hv => ?_) hv
      cases hv
      exact fits_presentTarget hw 125
    | fail f => cases hv
    | crash => cases hv

theorem nonces_probe (mode : ProbeMode) (plain : Bool) (m : Materialized ProbeRequest)
    (s : Server) :
    (probe mode plain m s).2.nonces = s.nonces := by
  cases plain with
  | true => rfl
  | false => cases mode <;> rfl

/-- **Every probe is ordinary**, whatever its schema. -/
theorem ordinary_probeRoute (endpoint : String) (declared current : Schema) (mode : ProbeMode)
    (plain : Bool) : (probeRoute endpoint declared current mode plain).Ordinary :=
  ⟨_, probeKind current plain, probe mode plain, rfl, merged_probeKind current plain,
    nonces_probe mode plain, fun _ _ _ => shaped_probe⟩

/-- **Probes may be added to a registry**, and given other schemas. -/
theorem Bench.ordinary_registry {b : Bench} (h : b.base.Ordinary) : b.registry.Ordinary := by
  have hfold : ∀ (probes : List ProbeSpec) (t : Registry), t.Ordinary →
      Registry.Ordinary (probes.foldl (fun t p => t.insert p.endpoint (p.route b.schemas)) t) := by
    intro probes
    induction probes with
    | nil => exact fun t ht => ht
    | cons p rest ih =>
      exact fun t ht => ih _ (ht.insert (ordinary_probeRoute _ _ _ _ _) p.endpoint)
  exact hfold b.probes b.base h

end Endpoint
end Coursework
