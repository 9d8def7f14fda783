import Coursework.Endpoint.Fetch
import Coursework.Proofs.Request.Resolution

/-!
# Looking up one submission and all of them

`peek` and `history` look into the same list, of the submissions of one user to one assignment, by
start time.  Both settle first whom they are about, and nothing that they do until then depends on
which submission is asked for: neither has a field that the server fills in, so that a request is
materialized by its context alone (`Request.materialize_of_context`).

`history` shows the whole list, and `peek` its last element or the one with a short id
(`Endpoint.pick`); there is at most one, since the store keeps the short ids under a key apart
(`Store.nodup_history`).  `Endpoint.peek_agrees_history` puts this together.
-/

set_option autoImplicit false

namespace Coursework

open Json

/-! ## What is kept under a key -/

namespace Store

variable {s : Store} {key : SubmissionKey}

theorem latest?_map_grade (s : Store) (key : SubmissionKey) :
    (s.latest? key).map Submission.grade = (s.history key).getLast? := by
  rw [latest?, history, List.getLast?_map]

/-- What is found under a short id is the one grade of the history that has it. -/
theorem submission?_map_grade (s : Store) (key : SubmissionKey) (short : String) :
    (s.submission? key short).map Submission.grade =
      (s.history key).find? fun g => g.shortId == short := by
  rw [submission?, history, List.find?_map]
  rfl

theorem nodup_history (hproper : s.Proper) : ((s.history key).map Grade.shortId).Nodup := by
  rw [history, List.map_map]
  exact hproper.distinct key

theorem carried_of_mem_history (hproper : s.Proper) {g : Grade} (hg : g ∈ s.history key) :
    g.courseId = key.course ∧ g.assignmentId = key.assignment ∧ g.user = key.email := by
  obtain ⟨r, hr, rfl⟩ := List.mem_map.1 hg
  have hkey := hproper.submission key r hr
  exact ⟨congrArg SubmissionKey.course hkey, congrArg SubmissionKey.assignment hkey,
    congrArg SubmissionKey.email hkey⟩

end Store

/-! ## Requests that differ beside their context -/

def Materialized.withRequest {R S : Type} (m : Materialized R) (r : S) : Materialized S :=
  ⟨r, m.course, m.assignment, m.identity, m.uploads⟩

@[simp] theorem Materialized.request_withRequest {R S : Type} (m : Materialized R) (r : S) :
    (m.withRequest r).request = r := rfl

/-- Requests that have no fields for the server to fill in, and one schema, are materialized alike
if their contexts are the same. -/
theorem Request.materialize_of_context {R S : Type} {k : RequestKind R} {l : RequestKind S}
    (hschema : l.schema = k.schema) (hfields : k.schema.fields = []) {a b : RawRequest} {r : R}
    {q : S} {context : Context} (ha : decodeText? k.decode a.content = some (r, context))
    (hb : decodeText? l.decode b.content = some (q, context)) (s : Server) :
    materialize l b s =
      ((materialize k a s).1.map fun m => m.withRequest q, (materialize k a s).2) := by
  simp only [materialize, ha, hb, hschema]
  rcases k.schema.validate with f | ⟨⟩
  · rfl
  · dsimp only
    rcases resolve k.schema context s.backend with f | ⟨course, assignment⟩
    · rfl
    · dsimp only
      rcases admitSender k.schema s.backend s.nonces context course with ⟨f | identity, left⟩
      · rfl
      · dsimp only
        rw [complete_of_no_fields hfields, complete_of_no_fields (hschema ▸ hfields)]
        rfl

theorem Request.request_of_materialize {R : Type} {kind : RequestKind R}
    (hfields : kind.schema.fields = []) {raw : RawRequest} {s u : Server} {m : Materialized R}
    (h : materialize kind raw s = (.ok m, u)) {r : R} {context : Context}
    (hraw : decodeText? kind.decode raw.content = some (r, context)) :
    m.request = r ∧ resolve kind.schema context s.backend = .ok (m.course, m.assignment) ∧
      ∃ left, admitSender kind.schema s.backend s.nonces context m.course =
        (.ok m.identity, left) := by
  obtain ⟨r', context', left, hraw', -, hresolve, hadmit, hcomplete⟩ := materialize_eq_ok h
  cases hraw'.symm.trans hraw
  rw [complete_of_no_fields hfields] at hcomplete
  have hrequest := Except.ok.inj (congrArg Prod.fst hcomplete)
  exact ⟨(congrArg Materialized.request hrequest).symm, hresolve, left, hadmit⟩

namespace Endpoint

/-! ## Whom a look-up is about -/

theorem findTarget_eq_ok {b : Backend} {i : Identity} {c : Course} {named : String}
    {target : Target}
    (h : findTarget b i c named = .ok target) :
    target.email = (if Text.trim named = "" then i.account.email else Text.trim named) ∧
      (target.email = i.account.email ∨ i.hasRole .grader = true) := by
  simp only [findTarget] at h
  split at h
  · next hself =>
    cases h
    refine ⟨?_, .inl rfl⟩
    split
    · rfl
    · next hnamed => exact (hself.resolve_left hnamed).symm
  · next hother =>
    rw [not_or] at hother
    rw [if_neg hother.1]
    split at h
    · next hgrader => split at h <;> cases h <;> exact ⟨rfl, .inr hgrader⟩
    · cases h

/-- The grade of a list that is asked for: the one with a short id, or the last. -/
def pick (grades : List Grade) : Option String → Option Grade
  | none => grades.getLast?
  | some short => grades.find? fun g => g.shortId == short

section Handlers

variable {b : Backend} {c : Course} {a : Assignment}

theorem resolveTarget_eq {R : Type} {m : Materialized R} {i : Identity} (hi : m.identity = some i)
    (hc : m.course = some c) (named : String) :
    resolveTarget b m named = findTarget b i c named := by
  simp only [resolveTarget, Materialized.needIdentity, hi, Materialized.needCourse, hc]

theorem resolveTarget_withRequest {R S : Type} (m : Materialized R) (r : S) (named : String) :
    resolveTarget b (m.withRequest r) named = resolveTarget b m named := rfl

/-- `peek` picks from the list of the user, if that is found (`pick`), as soon as there is a course
and an assignment. -/
theorem peek_eq {m : Materialized PeekRequest} (hc : m.course = some c) (ha : m.assignment = some a)
    (hup : .submission ∉ b.down) :
    peek b m = (resolveTarget b m m.request.targetEmail).bind fun target =>
      if target.found then
        (askedId m.request.targetSubmission ⟨c.id, a.id, target.email⟩).map fun asked =>
          ⟨true, pick (b.store.history ⟨c.id, a.id, target.email⟩) asked⟩
      else .ok ⟨false, none⟩ := by
  simp only [peek, Materialized.needCourse, hc, Materialized.needAssignment, ha, bind, Except.bind]
  rcases resolveTarget b m m.request.targetEmail with f | target
  · rfl
  · dsimp only
    split
    · rcases askedId m.request.targetSubmission ⟨c.id, a.id, target.email⟩ with f | _ | short
      · rfl
      · simp only [Backend.submission?, Backend.guarded, if_neg hup, Fault.ofStore,
          Store.latest?_map_grade]
        rfl
      · simp only [Backend.submission?, Backend.guarded, if_neg hup, Fault.ofStore,
          Store.submission?_map_grade]
        rfl
    · rfl

/-- `history` shows the list of the user, if that is found. -/
theorem history_eq {m : Materialized HistoryRequest} (hc : m.course = some c)
    (ha : m.assignment = some a) (hup : .history ∉ b.down) :
    history b m = (resolveTarget b m m.request.targetEmail).map fun target =>
      ⟨target.found, if target.found then b.store.history ⟨c.id, a.id, target.email⟩ else []⟩ := by
  simp only [history, Materialized.needCourse, hc, Materialized.needAssignment, ha, bind,
    Except.bind]
  rcases resolveTarget b m m.request.targetEmail with f | target
  · rfl
  · dsimp only [Except.map]
    split
    · next hfound => simp only [Backend.history, Backend.guarded, if_neg hup, Fault.ofStore, hfound]
    · next hfound => simp only [Bool.not_eq_true _ ▸ hfound]

end Handlers

/-! ## Both look-ups -/

/-- What a request comes to in the end, if its handler only looks something up: `materialize`, and
then the look-up in the store that there is. -/
def outcome {R A : Type} (kind : RequestKind R) (look : Backend → Materialized R → Except Fault A)
    (raw : RawRequest) (s : Server) : Except Fault A :=
  match Request.materialize kind raw s with
  | (.error f, _) => .error f
  | (.ok m, u) => look u.backend m

/-- What a request comes to (`outcome`) is what the routes answer, once it is written. -/
theorem reply_peekRoute (raw : RawRequest) (s : Server) : (peekRoute.call raw s).1 =
    Reply.ofResult ((outcome peekKind peek raw s).map Peeked.writeJson) := by
  simp only [peekRoute, Route.of, Route.run, outcome]
  rcases Request.materialize peekKind raw s with ⟨f | m, u⟩ <;> rfl

theorem reply_historyRoute (raw : RawRequest) (s : Server) : (historyRoute.call raw s).1 =
    Reply.ofResult ((outcome historyKind history raw s).map History.writeJson) := by
  simp only [historyRoute, Route.of, Route.run, outcome]
  rcases Request.materialize historyKind raw s with ⟨f | m, u⟩ <;> rfl

/-- A text is a request for one submission, in a context and of a user. -/
def AsksFor (context : Context) (email named : String) (raw : RawRequest) : Prop :=
  decodeText? peekKind.decode raw.content = some (⟨email, named⟩, context)

/-- All grades are shown to a sender, and requests for one submission agree with them: what they
show is kept under a key of the course, the assignment and the `user` that they name, who is the
sender if none is named, and only a grader sees somebody else (`own`).  Of a user who is not found
nothing is shown (`missing`).  Without an id it is the last that is shown (`latest`), with an id the
one that has it (`named`), and an id that is not accepted is `refused`. -/
structure Agrees (s : Server) (context : Context) (email : String) (i : Identity)
    (key : SubmissionKey) (shown : History) : Prop where
  setting : ∃ c a, Request.resolve fetchSchema context s.backend = .ok (some c, some a) ∧
    (Request.authenticate s.backend s.nonces context (some c)).1 = .ok i ∧
    key.course = c.id ∧ key.assignment = a.id
  user : key.email = if Text.trim email = "" then i.account.email else Text.trim email
  own : key.email = i.account.email ∨ i.hasRole .grader = true
  carried : ∀ g ∈ shown.grades,
    g.courseId = key.course ∧ g.assignmentId = key.assignment ∧ g.user = key.email
  distinct : (shown.grades.map Grade.shortId).Nodup
  missing : shown.foundUser = false → shown.grades = [] ∧
    ∀ raw named, AsksFor context email named raw → outcome peekKind peek raw s = .ok ⟨false, none⟩
  latest : shown.foundUser = true → ∀ raw named, AsksFor context email named raw →
    Text.trim named = "" → outcome peekKind peek raw s = .ok ⟨true, shown.grades.getLast?⟩
  named : shown.foundUser = true → ∀ raw named, AsksFor context email named raw →
    Text.trim named ≠ "" → ∀ short,
    SubmissionId.short (Text.trim named) key.course key.assignment key.email = .ok short →
      (∃ g ∈ shown.grades, g.shortId = short ∧
        outcome peekKind peek raw s = .ok ⟨true, some g⟩) ∨
      (∀ g ∈ shown.grades, g.shortId ≠ short) ∧ outcome peekKind peek raw s = .ok ⟨true, none⟩
  refused : shown.foundUser = true → ∀ raw named, AsksFor context email named raw →
    Text.trim named ≠ "" → ∀ e,
    SubmissionId.short (Text.trim named) key.course key.assignment key.email = .error e →
      outcome peekKind peek raw s = .error (.invalid e)

theorem askedId_of_blank {named : String} (h : Text.trim named = "") (key : SubmissionKey) :
    askedId named key = .ok none := by
  rw [askedId, if_pos h]

theorem askedId_of_named {named short : String} (h : Text.trim named ≠ "") {key : SubmissionKey}
    (hshort : SubmissionId.short (Text.trim named) key.course key.assignment key.email =
      .ok short) :
    askedId named key = .ok (some short) := by
  simp only [askedId, if_neg h, hshort]

theorem askedId_of_refused {named : String} (h : Text.trim named ≠ "") {key : SubmissionKey}
    {e : Invalid}
    (he : SubmissionId.short (Text.trim named) key.course key.assignment key.email = .error e) :
    askedId named key = .error (.invalid e) := by
  simp only [askedId, if_neg h, he]

/-- A request for one submission comes to what its look-up does, once the other one is
materialized. -/
theorem outcome_peek {s u : Server} {raw : RawRequest} {context : Context} {email : String}
    (hraw : decodeText? historyKind.decode raw.content = some (⟨email⟩, context))
    {result : Except Fault (Materialized HistoryRequest)}
    (h : Request.materialize historyKind raw s = (result, u)) {raw' : RawRequest} {named : String}
    (hasks : AsksFor context email named raw') :
    outcome peekKind peek raw' s =
      result.bind fun m => peek u.backend (m.withRequest ⟨email, named⟩) := by
  have hschema : peekKind.schema = historyKind.schema := rfl
  rw [outcome, Request.materialize_of_context hschema rfl hraw hasks, h]
  rcases result with f | m <;> rfl

/-- A request for one submission of a user who was looked up is one into the list of that user. -/
theorem agrees_of_target {s : Server} (hproper : s.backend.store.Proper)
    (hup : .submission ∉ s.backend.down) {context : Context} {email user : String} {i : Identity}
    {c : Course} {a : Assignment} {found : Bool}
    (hresolve : Request.resolve fetchSchema context s.backend = .ok (some c, some a))
    (hsender : (Request.authenticate s.backend s.nonces context (some c)).1 = .ok i)
    (htarget : findTarget s.backend i c email = .ok ⟨user, found⟩)
    (hpeek : ∀ raw named, AsksFor context email named raw → ∃ m : Materialized PeekRequest,
      m.request = ⟨email, named⟩ ∧ m.course = some c ∧ m.assignment = some a ∧
        m.identity = some i ∧ outcome peekKind peek raw s = peek s.backend m) :
    Agrees s context email i ⟨c.id, a.id, user⟩
      ⟨found, if found then s.backend.store.history ⟨c.id, a.id, user⟩ else []⟩ := by
  obtain ⟨huser, hown⟩ := findTarget_eq_ok htarget
  have hlookup : ∀ m : Materialized PeekRequest, ∀ named, m.request = ⟨email, named⟩ →
      m.course = some c → m.identity = some i →
      resolveTarget s.backend m m.request.targetEmail = .ok ⟨user, found⟩ :=
    fun m named hrequest hc hi => by rw [resolveTarget_eq hi hc, hrequest, htarget]
  have hsetting : ∃ d e, Request.resolve fetchSchema context s.backend = .ok (some d, some e) ∧
      (Request.authenticate s.backend s.nonces context (some d)).1 = .ok i ∧ c.id = d.id ∧
      a.id = e.id := ⟨c, a, hresolve, hsender, rfl, rfl⟩
  cases found with
  | false =>
    exact
      { setting := hsetting
        user := huser
        own := hown
        carried := fun _ hg => absurd hg List.not_mem_nil
        distinct := List.nodup_nil
        missing := fun _ => ⟨rfl, fun raw named hasks => by
          obtain ⟨m, hrequest, hc, ha, hi, hm⟩ := hpeek raw named hasks
          rw [hm, peek_eq hc ha hup, hlookup m named hrequest hc hi]
          rfl⟩
        latest := fun hfound => absurd hfound Bool.false_ne_true
        named := fun hfound => absurd hfound Bool.false_ne_true
        refused := fun hfound => absurd hfound Bool.false_ne_true }
  | true =>
    have hfound : ∀ raw named, AsksFor context email named raw → outcome peekKind peek raw s =
        (askedId named ⟨c.id, a.id, user⟩).map fun asked =>
          ⟨true, pick (s.backend.store.history ⟨c.id, a.id, user⟩) asked⟩ := by
      intro raw named hasks
      obtain ⟨m, hrequest, hc, ha, hi, hm⟩ := hpeek raw named hasks
      rw [hm, peek_eq hc ha hup, hlookup m named hrequest hc hi, hrequest]
      rfl
    refine
      { setting := hsetting
        user := huser
        own := hown
        carried := fun _ => Store.carried_of_mem_history hproper
        distinct := Store.nodup_history hproper
        missing := fun hnone => absurd hnone.symm Bool.false_ne_true
        latest := fun _ raw named hasks hblank => ?_
        named := fun _ raw named hasks hnamed short hshort => ?_
        refused := fun _ raw named hasks hnamed e he => ?_ }
    · rw [hfound raw named hasks, askedId_of_blank hblank]
      rfl
    · have hone := hfound raw named hasks
      rw [askedId_of_named hnamed hshort, Except.map, pick] at hone
      rcases hg : (s.backend.store.history ⟨c.id, a.id, user⟩).find? fun g =>
        g.shortId == short with
        _ | g
      · rw [hg] at hone
        exact .inr ⟨fun g hg' => by simpa using List.find?_eq_none.1 hg g hg', hone⟩
      · rw [hg] at hone
        exact .inl ⟨g, List.mem_of_find?_eq_some hg, by simpa using List.find?_some hg, hone⟩
    · rw [hfound raw named hasks, askedId_of_refused hnamed he]
      rfl

/-! ## What is answered -/

/-- What is shown of a submission that was looked up, in a document if there is one: the form of
`Peeked.writeJson`. -/
def peekContent (foundUser : Bool) (info : Option Value) : Value :=
  (Value.object [("found-user", .bool foundUser), ("found-submission", .bool info.isSome),
    ("submission", info.getD .null)]).canonical

/-- What is shown of all submissions of a user: the form of `History.writeJson`. -/
def historyContent (foundUser : Bool) (infos : List Value) : Value :=
  (Value.object [("found-user", .bool foundUser), ("history", .array infos)]).canonical

section Replies

variable {s : Server} {raw : RawRequest} {doc : Grade → Value}

theorem writeGrades_of_writeJson {grades : List Grade}
    (h : ∀ g ∈ grades, g.writeJson = .ok (doc g)) : writeGrades grades = .ok (grades.map doc) := by
  induction grades with
  | nil => rfl
  | cons g rest ih =>
    rw [writeGrades, h g List.mem_cons_self, ih fun g hg => h g (List.mem_cons_of_mem _ hg)]
    rfl

theorem reply_of_history {shown : History} (h : outcome historyKind history raw s = .ok shown)
    (hwrite : ∀ g ∈ shown.grades, g.writeJson = .ok (doc g)) :
    (historyRoute.call raw s).1 =
      .content (historyContent shown.foundUser (shown.grades.map doc)) := by
  rw [reply_historyRoute, h, Except.map, History.writeJson, writeGrades_of_writeJson hwrite]
  rfl

variable (doc) in
theorem reply_of_peek {found : Peeked} (h : outcome peekKind peek raw s = .ok found)
    (hwrite : ∀ g, found.grade = some g → g.writeJson = .ok (doc g)) :
    (peekRoute.call raw s).1 =
      .content (peekContent found.foundUser (found.grade.map doc)) := by
  obtain ⟨foundUser, _ | g⟩ := found
  · rw [reply_peekRoute, h]
    rfl
  · rw [reply_peekRoute, h]
    simp only [Except.map, Peeked.writeJson, hwrite g rfl]
    rfl

/-- **The routes agree like the look-ups behind them**, if the times in the grades can be written:
where `historyRoute` shows documents, `peekRoute` shows the last of them to a request without an id,
and to one with an id the one that has it, or none.  What cannot be written is refused by either
route on its own, so that `historyRoute` may refuse to show a list of which `peekRoute` shows the
last. -/
theorem Agrees.replies {context : Context} {email : String} {i : Identity} {key : SubmissionKey}
    {shown : History} (h : Agrees s context email i key shown)
    (hhistory : outcome historyKind history raw s = .ok shown)
    (hwrite : ∀ g ∈ shown.grades, g.writeJson = .ok (doc g)) :
    (historyRoute.call raw s).1 =
        .content (historyContent shown.foundUser (shown.grades.map doc)) ∧
      ∀ raw' named, AsksFor context email named raw' →
        (Text.trim named = "" → (peekRoute.call raw' s).1 =
          .content (peekContent shown.foundUser (shown.grades.map doc).getLast?)) ∧
        (Text.trim named ≠ "" → ∀ short, shown.foundUser = true →
          SubmissionId.short (Text.trim named) key.course key.assignment key.email = .ok short →
          (∃ g ∈ shown.grades, g.shortId = short ∧
            (peekRoute.call raw' s).1 = .content (peekContent true (some (doc g)))) ∨
          (∀ g ∈ shown.grades, g.shortId ≠ short) ∧
            (peekRoute.call raw' s).1 = .content (peekContent true none)) := by
  refine ⟨reply_of_history hhistory hwrite, fun raw' named hasks => ⟨fun hblank => ?_,
    fun hnamed short hfound hshort => ?_⟩⟩
  · rcases hfound : shown.foundUser with _ | _
    · obtain ⟨hnone, hmissing⟩ := h.missing hfound
      rw [hnone]
      exact reply_of_peek doc (hmissing raw' named hasks) fun g hg => by cases hg
    · rw [List.getLast?_map]
      exact reply_of_peek doc (h.latest hfound raw' named hasks hblank) fun g hg =>
        hwrite g (List.mem_of_getLast? hg)
  · obtain ⟨g, hg, hid, hpeek⟩ | ⟨hother, hpeek⟩ :=
    h.named hfound raw' named hasks hnamed short hshort
    · exact .inl ⟨g, hg, hid, reply_of_peek doc hpeek fun g' hg' =>
      Option.some.inj hg' ▸ hwrite g hg⟩
    · exact .inr ⟨hother, reply_of_peek doc hpeek fun g hg => by cases hg⟩

end Replies

/-- **A request for one submission and a request for all of them agree**, whatever was written to
the store, if they have the same context and are about the same user: both fail in the same way
before it matters which submission is asked for, or both find the user or not, and then the one
shows the last of what the other shows, or the only one with the id that is asked for, or that there
is none.

This is about what the handlers of `peek` and `history` come to (`outcome`), before anything is
written.  `Agrees.replies` says what their routes answer. -/
theorem peek_agrees_history {ws : List Write} {down : List Operation}
    (hsubmission : .submission ∉ down) (hhistory : .history ∉ down) {s : Server}
    (hs : s.backend = ⟨Store.empty.performAll ws, down⟩) {raw : RawRequest} {context : Context}
    {email : String} (hraw : decodeText? historyKind.decode raw.content = some (⟨email⟩, context)) :
    (∃ f, outcome historyKind history raw s = .error f ∧
      ∀ raw named, AsksFor context email named raw → outcome peekKind peek raw s = .error f) ∨
    ∃ i key shown, outcome historyKind history raw s = .ok shown ∧
      Agrees s context email i key shown := by
  have hproper : s.backend.store.Proper := by
    rw [hs]
    exact Store.proper_empty.performed ws
  have hup : .submission ∉ s.backend.down := by rwa [hs]
  have hup' : .history ∉ s.backend.down := by rwa [hs]
  rcases hm : Request.materialize historyKind raw s with ⟨f | m, u⟩
  · exact .inl ⟨f, by rw [outcome, hm], fun raw' named hasks => outcome_peek hraw hm hasks⟩
  have hbackend : u.backend = s.backend := by
    rw [← Request.backend_materialize historyKind raw s, hm]
  obtain ⟨hrequest, hresolve, left, hadmit⟩ := Request.request_of_materialize rfl hm hraw
  obtain ⟨c, a, -, hc, -, ha⟩ := Request.findAssignment_of_resolve hresolve rfl rfl
  obtain ⟨i, hi, hauthenticate, -⟩ := Request.admitSender_eq_ok hadmit rfl
  rw [hc, ha] at hresolve
  rw [hc] at hauthenticate
  have hpeek : ∀ raw' named, AsksFor context email named raw' →
      outcome peekKind peek raw' s = peek s.backend (m.withRequest ⟨email, named⟩) :=
    fun raw' named hasks => by
      rw [outcome_peek hraw hm hasks, hbackend]
      rfl
  have hall : outcome historyKind history raw s = history s.backend m := by
    rw [outcome, hm, ← hbackend]
  have htarget : resolveTarget s.backend m m.request.targetEmail =
      findTarget s.backend i c email := by
    rw [hrequest]
    exact resolveTarget_eq hi hc email
  rcases hfind : findTarget s.backend i c email with f | ⟨user, found⟩
  · refine .inl ⟨f, ?_, fun raw' named hasks => ?_⟩
    · rw [hall, history_eq hc ha hup', htarget, hfind]
      rfl
    · rw [hpeek raw' named hasks, peek_eq hc ha hup, Materialized.request_withRequest,
        resolveTarget_withRequest, resolveTarget_eq hi hc, hfind]
      rfl
  · refine .inr ⟨i, _, _, ?_, agrees_of_target hproper hup hresolve
      (congrArg Prod.fst hauthenticate) hfind fun raw' named hasks =>
        ⟨m.withRequest ⟨email, named⟩, rfl, hc, ha, hi, hpeek raw' named hasks⟩⟩
    rw [hall, history_eq hc ha hup', htarget, hfind]
    rfl

def rootGrade : Grade :=
  ⟨"cs1::hw1::root::7", "7", "cs1", "hw1", "root", "", 10, 8, ⟨7, 0⟩, ⟨7, 0⟩, false⟩

/-- A server that has `rootGrade`, and a nonce for the next trusted local request. -/
def gradedServer : Server :=
  { Server.start
      ((Store.empty.performAll Request.homeworkWrites).withSubmissions ⟨"cs1", "hw1", "root"⟩
        [⟨rootGrade, []⟩])
      ⟨0, 0⟩ .foreseeable (.generous 0) .empty "/uploads" with
    nonces := ⟨["n"]⟩ }

def ownSubmissions : RawRequest :=
  ⟨"\x7b\"course-id\": \"cs1\", \"assignment-id\": \"hw1\", \"root-user-nonce\": \"n\"\x7d", []⟩

/-- The grade is all that is shown, and the last. -/
theorem peek_agrees_history_graded :
    outcome historyKind history ownSubmissions gradedServer = .ok ⟨true, [rootGrade]⟩ ∧
      outcome peekKind peek ownSubmissions gradedServer = .ok ⟨true, some rootGrade⟩ := by
  have hhistory : outcome historyKind history ownSubmissions gradedServer =
      .ok ⟨true, [rootGrade]⟩ := rfl
  have hs : gradedServer.backend =
      ⟨Store.empty.performAll (Request.homeworkWrites ++ [.submission ⟨rootGrade, []⟩]), []⟩ := by
    have hsaved := Store.perform_eq_settled (Store.proper_empty.performed Request.homeworkWrites)
      (.submission ⟨rootGrade, []⟩)
    rw [Store.performAll, List.foldl_append]
    exact congrArg (fun w => (⟨w.store, []⟩ : Backend)) hsaved.symm
  have hraw : decodeText? historyKind.decode ownSubmissions.content =
      some (⟨""⟩, ⟨"cs1", "hw1", "", "", "n"⟩) := rfl
  have hasks : AsksFor ⟨"cs1", "hw1", "", "", "n"⟩ "" "" ownSubmissions := rfl
  obtain ⟨f, hf, -⟩ | ⟨i, key, shown, hshown, hagrees⟩ :=
    peek_agrees_history List.not_mem_nil List.not_mem_nil hs hraw
  · rw [hhistory] at hf
    cases hf
  · rw [hhistory] at hshown
    cases hshown
    exact ⟨hhistory, hagrees.latest rfl ownSubmissions "" hasks rfl⟩

end Endpoint
end Coursework
