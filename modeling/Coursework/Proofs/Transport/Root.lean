import Coursework.Proofs.Json.Sizes
import Coursework.Proofs.Transport.Bridge

/-!
# What runs as root

A request on the local socket is one to the public listener, made by root
(`Bridge.local_is_public_as_root`).  The nonce in the place of whatever the sender showed is live,
so that a request type that asks for a user gets root (`Bridge.admitSender_entered`), and a
registered endpoint with a plain text is reached by it (`Bridge.reaches_of_path`).

Three things are not so everywhere (`Bridge.root_without_course`).  Root is the owner of a course
where there is one; an endpoint whose text is not plain can be served another path than its own; and
where a text cannot be read, what the sender showed moves the column in which the reader stops.
-/

set_option autoImplicit false

namespace Coursework

open Json

namespace Bridge

variable {b : Bridge} {r r' : LocalRequest} {s : Server}

/-! ## Root -/

theorem entered_eq (s : Server) : entered s =
    { s with nonces := s.nonces.insert s.mint.1, entropy := (entered s).entropy } :=
  rfl

theorem contains_entered (s : Server) : (entered s).nonces.contains s.mint.1 = true :=
  (Nonces.contains_mint s.nonces s.entropy _).2 (.inl rfl)

/-- **Who is asked for is root**, and nobody is refused, once course and assignment are found. -/
theorem admitSender_entered {R : Type} {kind : RequestKind R} (hkind : kind.IsMerged)
    {frame : List UInt8} (h : decodeOctets? LocalRequest.decode frame = some r) {record : R}
    {context : Context}
    (hread : decodeText? kind.decode (r.withNonce s.mint.1).content = some (record, context))
    (hvalid : kind.schema.validate = .ok ()) (huser : kind.schema.needsUser = true)
    {course : Option Course} {assignment : Option Assignment}
    (hresolve : Request.resolve kind.schema context s.backend = .ok (course, assignment)) :
    Request.admitSender kind.schema s.backend (entered s).nonces context course =
      (.ok (some ⟨Account.root, if kind.schema.needsCourse then some .owner else none, true⟩),
        (entered s).nonces.remove s.mint.1) := by
  have hshown : context.nonce = s.mint.1 :=
    hkind.nonce_eq (LocalRequest.showsNonce_withNonce h _) hread
  rw [Request.admitSender_of_nonce hvalid huser hresolve (hshown ▸ s.mint_ne_empty)
    (hshown ▸ contains_entered s), Request.rootIdentity_eq hresolve, hshown]

theorem identity_entered {R : Type} {kind : RequestKind R} (hkind : kind.IsMerged)
    {frame : List UInt8} (h : decodeOctets? LocalRequest.decode frame = some r)
    (huser : kind.schema.needsUser = true) {m : Materialized R} {u : Server}
    (hm : Request.materialize kind ⟨(r.withNonce s.mint.1).content, []⟩ (entered s) = (.ok m, u)) :
    m.identity =
      some ⟨Account.root, if kind.schema.needsCourse then some .owner else none, true⟩ := by
  obtain ⟨record, context, nonces, hread, hvalid, hresolve, hsender, -⟩ :=
    Request.materialize_eq_ok hm
  have hroot := admitSender_entered hkind h hread hvalid huser hresolve
  exact Except.ok.inj (congrArg Prod.fst (hsender.symm.trans hroot))

/-- A registered endpoint with a plain text (`Url.PlainPath`) is reached by its own text, and
without the slash in front. -/
theorem reaches_of_path {endpoint : String} (hregistered : b.http.routes.contains endpoint = true)
    (hplain : Url.PlainPath endpoint) (hpath : r.path = endpoint) : b.Reaches r endpoint := by
  rw [Reaches, hpath]
  exact Http.resource?_plain hplain hregistered

theorem plainPath_shipped : ∀ route ∈ Endpoint.shipped, Url.PlainPath route.endpoint := by
  have hall : ∀ endpoint ∈ Endpoint.shipped.map Route.endpoint, Url.PlainPath endpoint := by
    decide +kernel
  exact fun route hroute => hall _ (List.mem_map_of_mem hroute)

/-- **A local request is one to the public listener, made by root.**

* The nonces are the same afterwards as before, whatever the frame was and however it went, if the
  nonce that is drawn is a new one.
* A frame that names an endpoint and holds an object is passed on as that object with a live nonce
  in it, and what the endpoint answers (`Http.dispatch`) to that text without files is what comes
  back, if it can be written.
* A request type that asks for a user gets `Account.root`, who is owner exactly if it asks for a
  course.
* The answer does not depend on what the object has in the place of the nonce.
* It does not depend on which texts the object has as email and password (`AlikeButSender`), except
  that a text that the endpoint cannot read is refused with what the reader says of that text
  (`Garbled`). -/
theorem local_is_public_as_root {b : Bridge} (hroutes : b.http.routes.Ordinary) :
    (∀ frame s, s.nonces.contains s.mint.1 = false → (b.handleFrame frame s).2.nonces = s.nonces) ∧
    ∀ frame r s, decodeOctets? LocalRequest.decode frame = some r →
        b.Within (r.withNonce s.mint.1) →
      (entered s = { s with nonces := s.nonces.insert s.mint.1, entropy := (entered s).entropy } ∧
        (entered s).nonces.contains s.mint.1 = true) ∧
      (Form.read s.wording b.http.bodyLimit (toPublic (r.withNonce s.mint.1)).body =
          .ok ⟨(r.withNonce s.mint.1).content, []⟩ ∧
        ((Value.object r.request).NumbersSurvive →
          decodeText? LocalRequest.decodeMembers (r.withNonce s.mint.1).content =
            some (Value.insertMember "root-user-nonce" (.string s.mint.1) r.request))) ∧
      (∀ endpoint, b.http.routes.contains endpoint = true → Url.PlainPath endpoint →
        r.path = endpoint → b.Reaches r endpoint) ∧
      (∀ endpoint body e v, b.link = .delivering → b.Reaches r endpoint →
        Form.read s.wording b.http.bodyLimit body = .ok ⟨(r.withNonce s.mint.1).content, []⟩ →
        (Http.dispatch b.http endpoint body (entered s)).1 = some e →
        e.content.NumbersSurvive → e.toJson? = some v → (b.handleFrame frame s).1 = e) ∧
      (∀ (R : Type) (kind : RequestKind R) record context course assignment, kind.IsMerged →
        kind.schema.needsUser = true →
        decodeText? kind.decode (r.withNonce s.mint.1).content = some (record, context) →
        kind.schema.validate = .ok () →
        Request.resolve kind.schema context s.backend = .ok (course, assignment) →
        Request.admitSender kind.schema s.backend (entered s).nonces context course =
          (.ok (some ⟨Account.root, if kind.schema.needsCourse then some .owner else none, true⟩),
            (entered s).nonces.remove s.mint.1)) ∧
      (∀ (R : Type) (kind : RequestKind R) m u, kind.IsMerged → kind.schema.needsUser = true →
        Request.materialize kind ⟨(r.withNonce s.mint.1).content, []⟩ (entered s) = (.ok m, u) →
        m.identity =
          some ⟨Account.root, if kind.schema.needsCourse then some .owner else none, true⟩) ∧
      (∀ frame' r', decodeOctets? LocalRequest.decode frame' = some r' → r.path = r'.path →
        (∀ name, name ≠ LocalRequest.nonceKey →
          r.request.lookup name = r'.request.lookup name) →
        b.handleFrame frame s = b.handleFrame frame' s) ∧
      ∀ frame' r', decodeOctets? LocalRequest.decode frame' = some r' → r.path = r'.path →
        AlikeButSender r.request r'.request → b.Within (r'.withNonce s.mint.1) →
        b.handleFrame frame s = b.handleFrame frame' s ∨
          ∃ (route : Route) (R : Type) (kind : RequestKind R) (id : String) (t : Server),
            b.Garbled frame r s route kind id t ∧ b.Garbled frame' r' s route kind id t := by
  refine ⟨fun frame s hfresh => nonces_handleFrame hroutes hfresh frame,
    fun frame r s h hwithin => ?_⟩
  refine ⟨⟨entered_eq s, contains_entered s⟩, ⟨read_toPublic hwithin s.wording, ?_⟩, ?_, ?_, ?_,
    ?_, ?_, ?_⟩
  · exact LocalRequest.decodeMembers_content h s.mint.1
  · exact fun endpoint => reaches_of_path
  · intro endpoint body e v hlink hreach hbody he hnumbers hv
    exact handleFrame_eq_dispatch hroutes hlink h hwithin hreach hbody he hnumbers hv
  · intro R kind record context course assignment hkind huser hread hvalid hresolve
    exact admitSender_entered hkind h hread hvalid huser hresolve
  · intro R kind m u hkind huser hm
    exact identity_entered hkind h huser hm
  · intro frame' r' h' hpath hother
    exact handleFrame_congr_of_nonce h h' hpath hother
  · intro frame' r' h' hpath halike hwithin'
    exact handleFrame_congr hroutes h h' hpath halike hwithin hwithin'

/-! ## Three probes

The probes show what they were given.  A request to each makes up a nonce and a sender. -/

def probe (endpoint : String) (schema : Schema) : Route :=
  Endpoint.probeRoute endpoint schema schema .present false

theorem ordinary_probe (endpoint : String) (schema : Schema) : (probe endpoint schema).Ordinary :=
  Endpoint.ordinary_probeRoute endpoint schema schema .present false

/-- Endpoints that show what they were given: two that ask for a user, and one that asks for a user
and a course. -/
def probes : Registry :=
  ((Table.empty.insert "/who" (probe "/who" (.build [.user]))).insert
    "/who?" (probe "/who?" (.build [.user]))).insert
    "/here" (probe "/here" (.build [.user, .course]))

theorem ordinary_probes : probes.Ordinary :=
  ((Registry.Ordinary.empty.insert (ordinary_probe "/who" _) "/who").insert
    (ordinary_probe "/who?" _) "/who?").insert (ordinary_probe "/here" _) "/here"

/-- A request that makes up a nonce and a sender, neither of which is believed. -/
def forged (endpoint : String) : LocalRequest :=
  ⟨endpoint, [("course-id", .string "CS1"), ("root-user-nonce", .bool true),
    ("user-email", .string "nobody")]⟩

def forgedContent (endpoint : String) (s : Server) : String :=
  ((forged endpoint).withNonce s.mint.1).content

/-- A bridge to a listener with the `probes`, which takes bodies of the size of this request and no
larger ones. -/
def snugBridge (endpoint : String) (s : Server) : Bridge where
  link := .delivering
  http := ⟨probes, (Form.ofContent boundary (forgedContent endpoint s)).octets.length, false⟩
  base := "http://127.0.0.1:8080"

theorem within_forged (endpoint : String) (s : Server) :
    (snugBridge endpoint s).Within ((forged endpoint).withNonce s.mint.1) :=
  Nat.le_refl _

theorem decode_forged (endpoint : String) :
    decodeOctets? LocalRequest.decode (forged endpoint).toJson.octets = some (forged endpoint) := by
  have hread : Source.read (forged endpoint).toJson.octets = some (forged endpoint).toJson.source :=
    Value.ofString?_text _
  rw [decodeOctets?, hread]
  rfl

theorem read_forged (schema : Schema) (endpoint : String) (s : Server) :
    decodeText? (Endpoint.fullProbeKind schema).decode (forgedContent endpoint s) =
      some (⟨"", none, none, []⟩, ⟨"CS1", "", "nobody", "", s.mint.1⟩) := by
  rw [decodeText?, forgedContent, LocalRequest.content, Value.ofString?_text]
  rfl

theorem materialize_forged {schema : Schema} (hvalid : schema.validate = .ok ())
    (huser : schema.needsUser = true) (hfields : schema.fields = []) {s : Server}
    {course : Option Course} {assignment : Option Assignment}
    (hresolve : Request.resolve schema ⟨"CS1", "", "nobody", "", s.mint.1⟩ s.backend =
      .ok (course, assignment)) (endpoint : String) :
    Request.materialize (Endpoint.fullProbeKind schema) ⟨forgedContent endpoint s, []⟩ (entered s) =
      (.ok ⟨⟨"", none, none, []⟩, course, assignment, some (Request.rootIdentity course), []⟩,
        { entered s with nonces := (entered s).nonces.remove s.mint.1 }) := by
  have hm := @Request.materialize_of_nonce _ (Endpoint.fullProbeKind schema)
    ⟨forgedContent endpoint s, []⟩ (entered s) _ _ _ _ (read_forged schema endpoint s) hvalid huser
    hresolve s.mint_ne_empty (contains_entered s)
  have hnone : (Endpoint.fullProbeKind schema).schema.fields = [] := hfields
  rw [hm, Request.complete, hnone]
  rfl

def restingServer : Server :=
  .start { Store.empty with courses := Table.empty.insert "cs1" ⟨"cs1", ""⟩ } ⟨0, 0⟩ .foreseeable
    (.generous 0) .empty "/uploads"

theorem resolve_here (nonce : String) :
    Request.resolve (.build [.user, .course]) ⟨"CS1", "", "nobody", "", nonce⟩
        restingServer.backend =
      .ok (some ⟨"cs1", ""⟩, none) := by
  have hid : Request.normalId "CS1" = "cs1" := by decide
  have hcourse : restingServer.backend.course? "cs1" = .ok (some ⟨"cs1", ""⟩) := rfl
  simp only [Request.resolve, Request.findCourse, hid, hcourse]
  rfl

def shownHere : Value :=
  .object [("assignment", .null), ("course", .object [("id", .string "cs1"), ("name", .string "")]),
    ("files", .null), ("order", .array []), ("roster", .null),
    ("user", .object [("course-role", .string "owner"), ("email", .string "root"),
      ("has", .array (["other", "student", "grader", "admin", "owner"].map .string)),
      ("server-role", .string "root"), ("via-nonce", .bool true)])]

theorem probe_here (s : Server) : Endpoint.probe .present false
    ⟨⟨"", none, none, []⟩, some ⟨"cs1", ""⟩, none,
      some (Request.rootIdentity (some ⟨"cs1", ""⟩)), []⟩ s =
      (.content shownHere, s) := by
  have hidentity : Endpoint.identityToJson (Request.rootIdentity (some ⟨"cs1", ""⟩)) =
      .object [("email", .string "root"), ("server-role", .string "root"),
        ("course-role", .string "owner"), ("via-nonce", .bool true),
        ("has", .array (["other", "student", "grader", "admin", "owner"].map .string))] := rfl
  simp only [Endpoint.probe, Bool.false_eq_true, if_false, Endpoint.presentAll, Value.optional,
    hidentity, Course.toJson]
  rfl

theorem call_here : (probe "/here" (.build [.user, .course])).call
    ⟨forgedContent "here" restingServer, []⟩ (entered restingServer) =
      (.content shownHere, { entered restingServer with
        nonces := (entered restingServer).nonces.remove restingServer.mint.1 }) := by
  have hrun : (probe "/here" (.build [.user, .course])).call =
      Route.run (Endpoint.fullProbeKind (.build [.user, .course]))
        (Endpoint.probe .present false) := rfl
  rw [hrun, Route.run, materialize_forged rfl rfl rfl (resolve_here restingServer.mint.1)]
  simp only [probe_here]
  rfl

/-- A made-up sender does not matter: root is shown as owner, and no nonce is left. -/
theorem local_is_public_as_root_here : ∃ id,
    ((snugBridge "here" restingServer).handleFrame (forged "here").toJson.octets restingServer).1 =
        .ofContent id ⟨0, 0⟩ ⟨0, 0⟩ shownHere ∧
      ((snugBridge "here" restingServer).handleFrame (forged "here").toJson.octets
        restingServer).2.nonces = .empty := by
  obtain ⟨hnonces, hframe⟩ :=
    @local_is_public_as_root (snugBridge "here" restingServer) ordinary_probes
  obtain ⟨-, ⟨hbody, -⟩, hpath, hanswer, -⟩ :=
    hframe _ _ restingServer (decode_forged "here") (within_forged "here" restingServer)
  have hreach := hpath "/here" rfl (by decide) (by decide)
  have hroute : (snugBridge "here" restingServer).http.routes.resolve? "/here" =
      some (probe "/here" (.build [.user, .course])) := rfl
  obtain ⟨t, hclock, hcall⟩ : ∃ t : Server, t.clock = ⟨0, 0⟩ ∧
      Http.callRoute (snugBridge "here" restingServer).http "/here"
        (toPublic ((forged "here").withNonce restingServer.mint.1)).body (entered restingServer) =
          (.content shownHere, t) := by
    rw [callRoute_of_within (within_forged "here" restingServer) hroute]
    exact ⟨_, rfl, call_here⟩
  obtain ⟨id, he⟩ := Http.dispatch_of_content hcall
  rw [hclock] at he
  have hwritten : (⟨0, 0⟩ : Time.Moment).rfc3339? = some "1970-01-01T00:00:00Z" := by decide
  obtain ⟨v, hv⟩ : ∃ v, (Envelope.ofContent id ⟨0, 0⟩ ⟨0, 0⟩ shownHere).toJson? = some v := by
    simp [Envelope.toJson?, Envelope.ofContent, Time.Moment.toJson?, hwritten]
  refine ⟨id, hanswer "/here" _ _ v rfl hreach hbody he ?_ hv, hnonces _ _ rfl⟩
  simp [shownHere, Envelope.ofContent, Value.NumbersSurvive, Value.MemberNumbersSurvive,
    Value.ItemNumbersSurvive]

/-! ## Two requests that cannot be read -/

/-- A request from somebody that no endpoint with a course can read. -/
def misplaced (email : String) : LocalRequest :=
  ⟨"here", [("course-id", .null), ("user-email", .string email)]⟩

/-- A server whose JSON reader says where it stopped (`Wording.lastColumn`). -/
def frankServer : Server :=
  { restingServer with wording := .lastColumn }

/-- The size of the form in which a request that is `misplaced` is passed on. -/
def misplacedSize (email : String) : Nat :=
  (Form.ofContent boundary ((misplaced email).withNonce frankServer.mint.1).content).octets.length

def probingBridge (limit : Nat) : Bridge where
  link := .delivering
  http := ⟨probes, limit, false⟩
  base := "http://127.0.0.1:8080"

/-- A bridge to a listener with the `probes`, which takes bodies of both sizes. -/
def roomyBridge : Bridge :=
  probingBridge (misplacedSize "kim" + misplacedSize "nobody")

theorem within_misplaced :
    roomyBridge.Within ((misplaced "kim").withNonce frankServer.mint.1) ∧
      roomyBridge.Within ((misplaced "nobody").withNonce frankServer.mint.1) := by
  have hlimit : roomyBridge.http.bodyLimit = misplacedSize "kim" + misplacedSize "nobody" := rfl
  rw [Within, Within, hlimit]
  exact ⟨Nat.le_add_right (misplacedSize "kim") _, Nat.le_add_left (misplacedSize "nobody") _⟩

theorem alike_misplaced (email email' : String) :
    AlikeButSender (misplaced email).request (misplaced email').request where
  other name hname := by
    have hemail : name ≠ "user-email" := fun h => hname (h ▸ by decide)
    simp only [misplaced, List.lookup_cons, beq_false_of_ne hemail]
  email := ⟨email, email', .inl rfl, .inl rfl⟩
  pass := ⟨"", "", .inr ⟨rfl, rfl⟩, .inr ⟨rfl, rfl⟩⟩

theorem decode_misplaced :
    decodeOctets? LocalRequest.decode (misplaced "kim").toJson.octets = some (misplaced "kim") ∧
      decodeOctets? LocalRequest.decode (misplaced "nobody").toJson.octets =
        some (misplaced "nobody") := by
  have hread : ∀ email, Source.read (misplaced email).toJson.octets =
      some (misplaced email).toJson.source :=
    fun email => Value.ofString?_text (misplaced email).toJson
  rw [decodeOctets?, decodeOctets?, hread, hread]
  exact ⟨rfl, rfl⟩

theorem decode_content_misplaced :
    decodeText? (Endpoint.fullProbeKind (.build [.user, .course])).decode
        ((misplaced "kim").withNonce frankServer.mint.1).content = none ∧
      decodeText? (Endpoint.fullProbeKind (.build [.user, .course])).decode
        ((misplaced "nobody").withNonce frankServer.mint.1).content = none := by
  rw [decodeText?, decodeText?, LocalRequest.content, LocalRequest.content, Value.ofString?_text,
    Value.ofString?_text]
  exact ⟨rfl, rfl⟩

theorem length_misplaced (nonce : String) :
    (Text.utf8 ((misplaced "nobody").withNonce nonce).content).length =
      (Text.utf8 ((misplaced "kim").withNonce nonce).content).length + 3 := by
  have hmembers : ∀ email, ((misplaced email).withNonce nonce).request =
      [("course-id", .null), ("root-user-nonce", .string nonce),
        ("user-email", .string email)] := by
    intro email
    simp only [misplaced, LocalRequest.withNonce, Value.insertMember]
    rw [if_neg (by decide +kernel), if_neg (by decide), if_pos (by decide +kernel)]
    rfl
  have hlength : ∀ email, (Text.utf8 ((misplaced email).withNonce nonce).content).length = _ :=
    fun email => Value.length_octets_object ((misplaced email).withNonce nonce).request
  have hkim : Value.memberSize ("user-email", .string "kim") = 19 := rfl
  have hnobody : Value.memberSize ("user-email", .string "nobody") = 22 := rfl
  simp only [hlength, hmembers, List.map_cons, List.map_nil, List.sum_cons, List.sum_nil, hkim,
    hnobody, reduceCtorEq, if_false]
  omega

theorem message_misplaced {email : String}
    (h : decodeOctets? LocalRequest.decode (misplaced email).toJson.octets = some (misplaced email))
    (hwithin : roomyBridge.Within ((misplaced email).withNonce frankServer.mint.1))
    (hnone : decodeText? (Endpoint.fullProbeKind (.build [.user, .course])).decode
      ((misplaced email).withNonce frankServer.mint.1).content = none) :
    (roomyBridge.handleFrame (misplaced email).toJson.octets frankServer).1.message =
      "malformed request: " ++
        ("invalid type: null, expected a string at line 1 column " ++ Text.decimal
          (Text.utf8 ((misplaced email).withNonce frankServer.mint.1).content).length) := by
  have hrun : (probe "/here" (.build [.user, .course])).call =
      Route.run (Endpoint.fullProbeKind (.build [.user, .course]))
        (Endpoint.probe .present false) := rfl
  have hunread : (probe "/here" (.build [.user, .course])).Unread
      (Endpoint.fullProbeKind (.build [.user, .course]))
      ((misplaced email).withNonce frankServer.mint.1).content :=
    ⟨hnone, fun files s => by rw [hrun, Route.run, Request.materialize_of_unread hnone]⟩
  have hpath : ((misplaced email).withNonce frankServer.mint.1).path = "/here" :=
    (if_neg (by decide : ¬ "here".toList.head? = some '/')).trans (by decide : "/" ++ "here" = _)
  have hclock : frankServer.clock.toJson?.isSome = true := by decide +kernel
  have hroute : roomyBridge.http.routes.resolve? "/here" =
      some (probe "/here" (.build [.user, .course])) := rfl
  have hgarbled := garbled_of_unread rfl hclock h hwithin (reaches_of_path rfl (by decide) hpath)
    hroute hunread
  rw [hgarbled.answer]
  rfl

/-- **There is no owner without a course**: who asks for a user only gets root with no role.  And
not every endpoint is reached under its own text: a question mark ends the path, and another
endpoint answers.  Nor is what is shown of a sender never seen, for where a text cannot be read the
reader says in which column it stopped, and a longer email moves that. -/
theorem root_without_course :
    (decodeOctets? LocalRequest.decode (forged "who").toJson.octets = some (forged "who") ∧
      (snugBridge "who" restingServer).Reaches (forged "who") "/who" ∧
      (snugBridge "who" restingServer).Within ((forged "who").withNonce restingServer.mint.1) ∧
      ∃ m u i, Request.materialize (Endpoint.fullProbeKind (.build [.user]))
          ⟨forgedContent "who" restingServer, []⟩ (entered restingServer) = (.ok m, u) ∧
        m.identity = some i ∧ i.account = Account.root ∧ i.courseRole ≠ some .owner) ∧
    ((snugBridge "who?" restingServer).http.routes.contains "/who?" = true ∧
      (forged "who?").path = "/who?" ∧
      ¬ (snugBridge "who?" restingServer).Reaches (forged "who?") "/who?") ∧
    AlikeButSender (misplaced "kim").request (misplaced "nobody").request ∧
      (decodeOctets? LocalRequest.decode (misplaced "kim").toJson.octets = some (misplaced "kim") ∧
        decodeOctets? LocalRequest.decode (misplaced "nobody").toJson.octets =
          some (misplaced "nobody")) ∧
      (roomyBridge.Within ((misplaced "kim").withNonce frankServer.mint.1) ∧
        roomyBridge.Within ((misplaced "nobody").withNonce frankServer.mint.1)) ∧
      (roomyBridge.handleFrame (misplaced "kim").toJson.octets frankServer).1.message ≠
        (roomyBridge.handleFrame (misplaced "nobody").toJson.octets frankServer).1.message := by
  have hm := @materialize_forged (.build [.user]) rfl rfl rfl restingServer none none rfl "who"
  have hreach : (snugBridge "who" restingServer).Reaches (forged "who") "/who" :=
    reaches_of_path rfl (by decide) (by decide)
  refine ⟨⟨decode_forged "who", hreach, within_forged "who" _, _, _, _, hm, rfl, rfl, nofun⟩,
    ⟨rfl, by decide, ?_⟩, alike_misplaced _ _, decode_misplaced, within_misplaced, ?_⟩
  · rintro ⟨counters, h⟩
    have hpath : Url.path (forged "who?").path = Url.path "/who" := by decide
    obtain ⟨_, hwho⟩ := @Http.resource?_plain (snugBridge "who?" restingServer).http "/who"
      (by decide) rfl
    rw [hpath, hwho] at h
    simp at h
  · rw [message_misplaced decode_misplaced.1 within_misplaced.1 decode_content_misplaced.1,
      message_misplaced decode_misplaced.2 within_misplaced.2 decode_content_misplaced.2,
      length_misplaced]
    intro hsame
    have hlength := Text.decimal_injective
      ((String.append_right_inj _).1 ((String.append_right_inj _).1 hsame))
    omega

end Bridge
end Coursework
