import Coursework.Proofs.Endpoint.Ordinary
import Coursework.Proofs.Transport.Envelope
import Coursework.Proofs.Transport.Form
import Coursework.Proofs.Transport.Paths
import Coursework.Transport.Bridge

/-!
# From the local socket to the public listener and back

A request on the local socket is passed on to the public listener, with a nonce that is live for as
long.  So there are two things to know about the bridge.

What comes back is what the endpoint answers to the same object with the nonce in it
(`Bridge.handleFrame_eq_dispatch`), and what the object says about its sender does not matter,
unless the endpoint cannot read it (`Bridge.handleFrame_congr`).  On the way it is written four
times and read as often: the object becomes a text and that a form, and the envelope becomes a
document and that octets.  None of this changes it, which is where the round trips of `Json.Value`,
`Form` and `Envelope` come in.

The nonces are the same afterwards, whatever the frame was (`Bridge.nonces_handleFrame`).  A request
can spend no nonce but the one that it shows, which is the one that the bridge made void, and had
drawn.
-/

set_option autoImplicit false

namespace Coursework

open Json

/-! ## The request -/

theorem Server.mint_ne_empty (s : Server) : s.mint.1 ≠ "" := by
  have hdrawn : s.entropy.octets Nonces.octetCount ≠ [] := by
    simp [Entropy.octets, Nonces.octetCount]
  obtain ⟨b, rest, hcons⟩ := List.exists_cons_of_ne_nil hdrawn
  have hmint : s.mint.1 = Text.hex (s.entropy.octets Nonces.octetCount) := rfl
  rw [hmint, hcons]
  exact Text.hex_cons_ne_empty b rest

namespace LocalRequest

/-- The object in a local request has its members in order and is not nested too deeply, since it
was read. -/
theorem shaped_of_decode {frame : List UInt8} {r : LocalRequest}
    (h : decodeOctets? decode frame = some r) :
    (Value.object r.request).Shaped (depthLimit - 1) := by
  obtain ⟨s, -, h⟩ := Option.bind_eq_some_iff.1 h
  obtain ⟨f, -, h⟩ := Option.bind_eq_some_iff.1 h
  obtain ⟨endpoint, -, h⟩ := Option.bind_eq_some_iff.1 h
  obtain ⟨request, hrequest, h⟩ := Option.bind_eq_some_iff.1 h
  cases h
  obtain ⟨source, -, hmembers⟩ := Option.bind_eq_some_iff.1 hrequest
  rw [decodeMembers] at hmembers
  split at hmembers
  · next hvalue =>
    cases hmembers
    exact Source.shaped_of_toValue? hvalue
  · cases hmembers

section WithNonce

variable {frame : List UInt8} {r : LocalRequest} (h : decodeOctets? decode frame = some r)
  (nonce : String)

include h in
theorem shaped_withNonce : (Value.object (r.withNonce nonce).request).Shaped (depthLimit - 1) :=
  Value.shaped_insertMember (shaped_of_decode h) _ trivial

include h in
theorem showsNonce_withNonce : ShowsNonce (r.withNonce nonce).request nonce where
  keys := (shaped_withNonce h nonce).1.nodup
  nonce := Value.lookup_insertMember_self _ _ _

include h in
/-- The text that is passed on says what the object says, with the nonce in it. -/
theorem decodeMembers_content (hnumbers : (Value.object r.request).NumbersSurvive) :
    decodeText? decodeMembers (r.withNonce nonce).content = some (r.withNonce nonce).request := by
  have hsurvive := Value.numbersSurvive_insertMember hnumbers nonceKey (v := .string nonce) trivial
  have hvalue := Value.toValue?_source (shaped_withNonce h nonce) hsurvive
  rw [decodeText?, content, Value.ofString?_text, Option.bind_some, decodeMembers,
    Decode.value, hvalue]

end WithNonce

end LocalRequest

namespace Bridge

/-- The form that is passed on for a request has no more octets than the listener takes. -/
def Within (b : Bridge) (r : LocalRequest) : Prop :=
  (Form.ofContent boundary r.content).octets.length ≤ b.http.bodyLimit

theorem read_toPublic {b : Bridge} {r : LocalRequest} (h : b.Within r) (w : Wording) :
    Form.read w b.http.bodyLimit (toPublic r).body = .ok ⟨r.content, []⟩ := by
  have hgraphic : Graphic (Text.utf8 r.content) := by
    rw [LocalRequest.content, Value.text, Text.utf8_ofList]
    exact Value.graphic_chars _
  have hline : 13 ∉ Text.utf8 r.content := fun hmem => absurd (hgraphic 13 hmem) (by decide)
  have hfirst : r.content.toList =
      '\x7b' :: (Value.memberChars r.request ++ ['\x7d']) := by
    rw [LocalRequest.content, Value.text, String.toList_ofList, Value.chars]
  exact Form.read_ofContent w h hline hfirst (by decide)

end Bridge

/-! ## The answer -/

theorem Route.Ordinary.shaped_call {route : Route} (h : route.Ordinary) {raw : RawRequest}
    {s : Server}
    {v : Value} (hv : (route.call raw s).1 = .content v) : v.Shaped (depthLimit - 1) := by
  obtain ⟨R, kind, handler, hcall, -, -, hshaped⟩ := h
  rw [hcall, Route.run] at hv
  split at hv
  · cases hv
  · exact hshaped _ _ _ hv

namespace Http

variable {c : Config} {endpoint : String} {body body' : Body} {s : Server}

theorem shaped_callRoute (hroutes : c.routes.Ordinary) {v : Value}
    (hv : (callRoute c endpoint body s).1 = .content v) : v.Shaped (depthLimit - 1) := by
  rw [callRoute] at hv
  split at hv
  · cases hv
  · split at hv
    · cases hv
    · next hroute => exact (hroutes _ _ hroute).shaped_call hv

/-- **Every envelope that the listener makes fits the wire**, if the numbers in its content do. -/
theorem portable_dispatch (hroutes : c.routes.Ordinary) {e : Envelope}
    (he : (dispatch c endpoint body s).1 = some e) (hnumbers : e.content.NumbersSurvive) :
    e.Portable := by
  have hshaped := @shaped_callRoute c endpoint body s hroutes
  rw [dispatch] at he
  cases hcall : callRoute c endpoint body s with
  | mk reply t =>
    rw [hcall] at he hshaped
    cases reply with
    | crashed => cases he
    | content v =>
      cases he
      exact ⟨Nat.le_of_ble_eq_true rfl, hshaped rfl, hnumbers⟩
    | refused f =>
      cases he
      exact ⟨f.status_le, trivial, hnumbers⟩

/-- Two bodies that `callRoute` answers alike are dispatched alike. -/
theorem dispatch_congr (h : callRoute c endpoint body s = callRoute c endpoint body' s) :
    dispatch c endpoint body s = dispatch c endpoint body' s := by
  rw [dispatch, dispatch, h]

theorem dispatch_of_content {v : Value} {t : Server}
    (h : callRoute c endpoint body s = (.content v, t)) :
    ∃ id, (dispatch c endpoint body s).1 = some (.ofContent id s.clock t.clock v) := by
  rw [dispatch, h]
  exact ⟨_, rfl⟩

theorem nonces_dispatch :
    (dispatch c endpoint body s).2.nonces = (callRoute c endpoint body s).2.nonces := by
  rw [dispatch]
  cases callRoute c endpoint body s with
  | mk reply t => cases reply <;> rfl

theorem nonces_post {trace : TraceEcho} :
    (post c endpoint body trace s).2.nonces = (callRoute c endpoint body s).2.nonces := by
  rw [← nonces_dispatch, post]
  cases dispatch c endpoint body s with
  | mk answer t => cases answer <;> rfl

end Http

namespace Bridge

variable {b : Bridge} {r : LocalRequest} {s : Server}

/-- The listener serves the path of a local request with an endpoint, as `Http.resource?` finds
it. -/
def Reaches (b : Bridge) (r : LocalRequest) (endpoint : String) : Prop :=
  ∃ counters, Http.resource? b.http (Url.path r.path) = some ⟨some endpoint, counters⟩

/-- The server as it answers what was passed on: the nonce is live, and the answer has a name to go
back under. -/
def entered (s : Server) : Server :=
  (Http.echo none s.mint.2).2

theorem handle_of_reaches {endpoint : String} (h : b.Reaches r endpoint) :
    Http.handle b.http (toPublic r) s =
      Http.post b.http endpoint (toPublic r).body (Http.echo none s).1 (Http.echo none s).2 := by
  obtain ⟨counters, h⟩ := h
  rw [Http.handle]
  simp only [toPublic, h]

/-- **The envelope comes back as it was made**, if it fits the wire (`Envelope.Portable`). -/
theorem received?_enveloped {e : Envelope} (he : e.Portable) {v : Value} (hv : e.toJson? = some v)
    (trace : Http.TraceEcho) : received? (Http.enveloped trace e) = some e := by
  rw [received?, Http.enveloped]
  simp only [hv, Option.bind_some]
  exact Envelope.decodeOctets?_octets he hv

theorem forward_of_delivering (hlink : b.link = .delivering) (r : LocalRequest) (s : Server) :
    b.forward r s =
      match received? (Http.handle b.http (toPublic r) s).1 with
      | some e => (.ok e, (Http.handle b.http (toPublic r) s).2)
      | none => (.error (.forwardFailed (s.wording.unreadable (b.base ++ Url.path r.path))),
          (Http.handle b.http (toPublic r) s).2) := by
  cases hreceived : received? (Http.handle b.http (toPublic r) s).1 <;>
    simp only [forward, hlink, hreceived]

theorem handleFrame_of_decode {frame : List UInt8}
    (h : decodeOctets? LocalRequest.decode frame = some r) {e : Envelope} {t : Server}
    (hforward : b.forward (r.withNonce s.mint.1) s.mint.2 = (.ok e, t)) :
    b.handleFrame frame s = (e, { t with nonces := t.nonces.release s.mint.1 }) := by
  rw [handleFrame, h]
  simp only [hforward]

/-- **What comes back is what the endpoint answers** to any body with the same text in it. -/
theorem handleFrame_eq_dispatch (hroutes : b.http.routes.Ordinary) (hlink : b.link = .delivering)
    {frame : List UInt8} (h : decodeOctets? LocalRequest.decode frame = some r)
    (hwithin : b.Within (r.withNonce s.mint.1)) {endpoint : String} (hreach : b.Reaches r endpoint)
    {body : Body}
    (hbody : Form.read s.wording b.http.bodyLimit body =
      .ok ⟨(r.withNonce s.mint.1).content, []⟩)
    {e : Envelope} (he : (Http.dispatch b.http endpoint body (entered s)).1 = some e)
    (hnumbers : e.content.NumbersSurvive) {v : Value} (hv : e.toJson? = some v) :
    (b.handleFrame frame s).1 = e := by
  have hportable := Http.portable_dispatch hroutes he hnumbers
  have hsame : Http.dispatch b.http endpoint body (entered s) =
      Http.dispatch b.http endpoint (toPublic (r.withNonce s.mint.1)).body (entered s) := by
    refine Http.dispatch_congr ?_
    have hentered : (entered s).wording = s.wording := rfl
    rw [Http.callRoute, Http.callRoute, hentered, hbody, read_toPublic hwithin]
  obtain ⟨t, ht⟩ :
    ∃ t, Http.dispatch b.http endpoint (toPublic (r.withNonce s.mint.1)).body (entered s) =
      (some e, t) := ⟨_, Prod.ext (hsame ▸ he) rfl⟩
  have hhandle : Http.handle b.http (toPublic (r.withNonce s.mint.1)) s.mint.2 =
      (Http.enveloped (Http.echo none s.mint.2).1 e, t) := by
    have hreach' : b.Reaches (r.withNonce s.mint.1) endpoint := hreach
    rw [handle_of_reaches hreach', Http.post]
    rw [entered] at ht
    simp only [ht]
  have hforward : b.forward (r.withNonce s.mint.1) s.mint.2 = (.ok e, t) := by
    rw [forward_of_delivering hlink, hhandle]
    simp only [received?_enveloped hportable hv]
  rw [handleFrame_of_decode h hforward]

end Bridge

/-! ## The nonces -/

open Nonces (SpentAtMost)

theorem Route.Ordinary.nonces_call {route : Route} (h : route.Ordinary)
    {members : List (String × Value)}
    {nonce : String} (hnonce : ShowsNonce members nonce) (files : List Upload) (s : Server) :
    SpentAtMost nonce s.nonces (route.call ⟨(Value.object members).text, files⟩ s).2.nonces := by
  obtain ⟨R, kind, handler, hcall, hkind, hhandler, -⟩ := h
  have hspent : SpentAtMost nonce s.nonces
      (Request.materialize kind ⟨(Value.object members).text, files⟩ s).2.nonces := by
    obtain hsame | ⟨record, context, hread, hspent⟩ :=
      Request.nonces_materialize kind ⟨(Value.object members).text, files⟩ s
    · exact .inl hsame
    · exact .inr (hkind.nonce_eq hnonce hread ▸ hspent)
  rw [hcall, Route.run]
  split
  · next heq => rwa [heq] at hspent
  · next m t heq =>
    rw [heq] at hspent
    have hleft := hhandler m t
    simp only [hleft]
    exact hspent

namespace Bridge

variable {b : Bridge} {r : LocalRequest} {s : Server}

/-- A request with a nonce can spend no other (`SpentAtMost`), wherever it is sent. -/
theorem spent_post (hroutes : b.http.routes.Ordinary) {nonce : String}
    (hnonce : ShowsNonce r.request nonce) (endpoint : String) (trace : Http.TraceEcho)
    (s : Server) :
    SpentAtMost nonce s.nonces (Http.post b.http endpoint (toPublic r).body trace s).2.nonces := by
  rw [Http.nonces_post, Http.callRoute]
  by_cases hwithin : b.Within r
  · rw [read_toPublic hwithin]
    dsimp only
    split
    · exact .inl rfl
    · next route hroute => exact (hroutes _ _ hroute).nonces_call hnonce [] s
  · rw [toPublic, Form.body, Form.read_of_over _ (Nat.not_le.1 hwithin)]
    exact .inl rfl

theorem spent_handle (hroutes : b.http.routes.Ordinary) {nonce : String}
    (hnonce : ShowsNonce r.request nonce) (s : Server) :
    SpentAtMost nonce s.nonces (Http.handle b.http (toPublic r) s).2.nonces := by
  rw [Http.handle]
  simp only [toPublic]
  split
  · exact .inl rfl
  · next resource _ =>
    cases resource.endpoint with
    | none => exact .inl rfl
    | some e => exact spent_post hroutes hnonce e _ (Http.echo none s).2

theorem spent_forward (hroutes : b.http.routes.Ordinary) {nonce : String}
    (hnonce : ShowsNonce r.request nonce) (s : Server) :
    SpentAtMost nonce s.nonces (b.forward r s).2.nonces := by
  have hspent := spent_handle hroutes hnonce s
  rw [forward]
  split
  · exact .inl rfl
  · dsimp only
    split <;> exact hspent

theorem nonces_handleFrame (hroutes : b.http.routes.Ordinary)
    (hfresh : s.nonces.contains s.mint.1 = false) (frame : List UInt8) :
    (b.handleFrame frame s).2.nonces = s.nonces := by
  rw [handleFrame]
  dsimp only
  split
  · rfl
  · next r hdecode =>
    have hspent := spent_forward hroutes
      (LocalRequest.showsNonce_withNonce hdecode s.mint.1) s.mint.2
    have hback := hspent.release_insert hfresh
    split <;> exact hback

end Bridge

/-! ## The sender -/

theorem ShowsText.insertMember {members : List (String × Value)} {name text key : String}
    (h : ShowsText members name text) (hname : name ≠ key) (v : Value) :
    ShowsText (Value.insertMember key v members) name text := by
  rw [ShowsText, Value.lookup_insertMember_of_ne hname]
  exact h

/-- Requests that differ in what they show of their sender do so with a nonce in them, too. -/
theorem AlikeButSender.insertMember {a b : List (String × Value)} (h : AlikeButSender a b)
    (v : Value) :
    AlikeButSender (Value.insertMember LocalRequest.nonceKey v a)
      (Value.insertMember LocalRequest.nonceKey v b) where
  other name hname := by
    have hne : name ≠ LocalRequest.nonceKey := by
      rintro rfl
      exact hname (by decide)
    rw [Value.lookup_insertMember_of_ne hne, Value.lookup_insertMember_of_ne hne]
    exact h.other name hname
  email := by
    obtain ⟨s, t, hs, ht⟩ := h.email
    exact ⟨s, t, hs.insertMember (by decide) v, ht.insertMember (by decide) v⟩
  pass := by
    obtain ⟨s, t, hs, ht⟩ := h.pass
    exact ⟨s, t, hs.insertMember (by decide) v, ht.insertMember (by decide) v⟩

/-- A route cannot read a `text` as a request of a type, and refuses it in the reader's words
(`Request.unread`). -/
structure Route.Unread (route : Route) {R : Type} (kind : RequestKind R) (content : String) :
    Prop where
  text : decodeText? kind.decode content = none
  call : ∀ files s, route.call ⟨content, files⟩ s = (.refused (Request.unread kind content s), s)

/-- **What a route answers does not depend on the sender** if there is a nonce, unless it can read
neither text: then each is refused, with what the reader has to say of it. -/
theorem Route.Ordinary.call_congr {route : Route} (h : route.Ordinary) {a b : List (String × Value)}
    (halike : AlikeButSender a b) {nonce : String} (hnonce : nonce ≠ "")
    (ha : ShowsNonce a nonce) (hb : ShowsNonce b nonce) :
    (∃ (R : Type) (kind : RequestKind R), route.Unread kind (Value.object a).text ∧
      route.Unread kind (Value.object b).text) ∨
    ∀ files s, route.call ⟨(Value.object a).text, files⟩ s =
      route.call ⟨(Value.object b).text, files⟩ s := by
  obtain ⟨R, kind, handler, hcall, hkind, -, -⟩ := h
  have hunread : ∀ {content}, decodeText? kind.decode content = none → route.Unread kind content :=
    fun h => ⟨h, fun files s => by rw [hcall, Route.run, Request.materialize_of_unread h]⟩
  obtain ⟨hnone, hnone'⟩ | hsame := Request.materialize_congr_sender hkind halike hnonce ha hb
  · exact .inl ⟨R, kind, hunread hnone, hunread hnone'⟩
  · refine .inr fun files s => ?_
    rw [hcall, Route.run, Route.run, hsame]

namespace Bridge

variable {b : Bridge} {r r' : LocalRequest} {s : Server}

/-- Requests for the same path come to the same, if the endpoint that serves it answers them
alike. -/
theorem forward_congr (hpath : r.path = r'.path)
    (h : ∀ endpoint, b.Reaches r endpoint →
      Http.callRoute b.http endpoint (toPublic r).body (Http.echo none s).2 =
        Http.callRoute b.http endpoint (toPublic r').body (Http.echo none s).2) :
    b.forward r s = b.forward r' s := by
  have hhandle : Http.handle b.http (toPublic r) s = Http.handle b.http (toPublic r') s := by
    rw [Http.handle, Http.handle]
    simp only [toPublic, ← hpath]
    cases hresource : Http.resource? b.http (Url.path r.path) with
    | none => rfl
    | some resource =>
      obtain ⟨_ | endpoint, counters⟩ := resource
      · rfl
      · have hdispatch := Http.dispatch_congr (h endpoint ⟨counters, hresource⟩)
        simp only [toPublic] at hdispatch
        simp only [Http.post, hdispatch]
  rw [forward, forward, hhandle, hpath]

theorem callRoute_of_within (hwithin : b.Within r) {endpoint : String}
    {route : Route} (hroute : b.http.routes.resolve? endpoint = some route) (t : Server) :
    Http.callRoute b.http endpoint (toPublic r).body t = route.call ⟨r.content, []⟩ t := by
  rw [Http.callRoute, read_toPublic hwithin]
  simp only [hroute]

/-- What a listener that refuses a request leaves behind, which does not depend on what the refusal
says. -/
def afterRefusal (s : Server) (endpoint : String) (l : Locator) : Server :=
  { (Http.drawName (Http.echo none s).2).2 with
    metrics := s.metrics.countRequest endpoint (some l) }

/-- A refusal goes back in an envelope, if the time can be written. -/
theorem forward_of_refused (hlink : b.link = .delivering) {endpoint : String}
    (hreach : b.Reaches r endpoint) {f : Fault}
    (hcall : Http.callRoute b.http endpoint (toPublic r).body (Http.echo none s).2 =
      (.refused f, (Http.echo none s).2)) :
    b.forward r s =
      (if s.clock.toJson?.isSome then
          .ok (.ofFault (Http.drawName (Http.echo none s).2).1 s.clock s.clock f)
        else .error (.forwardFailed (s.wording.unreadable (b.base ++ Url.path r.path))),
        afterRefusal s endpoint f.locator) := by
  have hhandle : Http.handle b.http (toPublic r) s =
      (Http.enveloped (Http.echo none s).1
        (.ofFault (Http.drawName (Http.echo none s).2).1 s.clock s.clock f),
        afterRefusal s endpoint f.locator) := by
    rw [handle_of_reaches hreach, Http.post, Http.dispatch, hcall]
    rfl
  rw [forward_of_delivering hlink, hhandle,
    ← Envelope.isSome_toJson?_ofFault (Http.drawName (Http.echo none s).2).1 s.clock f]
  cases hv :
      (Envelope.ofFault (Http.drawName (Http.echo none s).2).1 s.clock s.clock f).toJson? with
  | none => simp [received?, Http.enveloped, hv]
  | some v => simp [received?_enveloped (Envelope.portable_ofFault _ _ _ f) hv]

/-- The text that is passed on for a frame gets to a route that cannot read it (`Route.Unread`), and
the answer says so in the reader's words (`Request.unread`). -/
structure Garbled (b : Bridge) (frame : List UInt8) (r : LocalRequest) (s : Server) (route : Route)
    {R : Type} (kind : RequestKind R) (id : String) (t : Server) : Prop where
  served : ∃ endpoint, b.Reaches (r.withNonce s.mint.1) endpoint ∧
    b.http.routes.resolve? endpoint = some route
  unread : route.Unread kind (r.withNonce s.mint.1).content
  answer : b.handleFrame frame s =
    (.ofFault id s.clock s.clock (Request.unread kind (r.withNonce s.mint.1).content s), t)

theorem garbled_of_unread (hlink : b.link = .delivering) (hclock : s.clock.toJson?.isSome = true)
    {frame : List UInt8} (h : decodeOctets? LocalRequest.decode frame = some r)
    (hwithin : b.Within (r.withNonce s.mint.1)) {endpoint : String}
    (hreach : b.Reaches (r.withNonce s.mint.1) endpoint) {route : Route}
    (hroute : b.http.routes.resolve? endpoint = some route) {R : Type} {kind : RequestKind R}
    (hunread : route.Unread kind (r.withNonce s.mint.1).content) :
    b.Garbled frame r s route kind (Http.drawName (Http.echo none s.mint.2).2).1
      { afterRefusal s.mint.2 endpoint .malformedRequest with
        nonces := (afterRefusal s.mint.2 endpoint .malformedRequest).nonces.release s.mint.1 } := by
  have hcall := (callRoute_of_within hwithin hroute (entered s)).trans (hunread.call [] _)
  have hback := forward_of_refused hlink hreach hcall
  have hclock : s.mint.2.clock.toJson?.isSome := hclock
  rw [if_pos hclock] at hback
  exact ⟨⟨endpoint, hreach, hroute⟩, hunread, handleFrame_of_decode h hback⟩

theorem handleFrame_congr_of_forward {frame frame' : List UInt8}
    (h : decodeOctets? LocalRequest.decode frame = some r)
    (h' : decodeOctets? LocalRequest.decode frame' = some r')
    (hforward : b.forward (r.withNonce s.mint.1) s.mint.2 =
      b.forward (r'.withNonce s.mint.1) s.mint.2) :
    b.handleFrame frame s = b.handleFrame frame' s := by
  rw [handleFrame, handleFrame, h, h']
  simp only [hforward]

/-- The value in the place of the nonce is lost: two frames that differ in nothing else are passed
on as the same text. -/
theorem handleFrame_congr_of_nonce {frame frame' : List UInt8}
    (h : decodeOctets? LocalRequest.decode frame = some r)
    (h' : decodeOctets? LocalRequest.decode frame' = some r') (hpath : r.path = r'.path)
    (hother : ∀ name, name ≠ LocalRequest.nonceKey →
      r.request.lookup name = r'.request.lookup name) :
    b.handleFrame frame s = b.handleFrame frame' s := by
  have hrequest : (r.withNonce s.mint.1).request = (r'.withNonce s.mint.1).request := by
    refine (LocalRequest.shaped_withNonce h _).1.ext (LocalRequest.shaped_withNonce h' _).1
      fun name => ?_
    simp only [LocalRequest.withNonce]
    by_cases hname : name = LocalRequest.nonceKey
    · rw [hname, Value.lookup_insertMember_self, Value.lookup_insertMember_self]
    · rw [Value.lookup_insertMember_of_ne hname, Value.lookup_insertMember_of_ne hname,
      hother name hname]
  refine handleFrame_congr_of_forward h h' (forward_congr hpath fun endpoint _ => ?_)
  rw [toPublic, toPublic, LocalRequest.content, LocalRequest.content, hrequest]

/-- **What a local request shows of its sender does not matter**, whatever texts are in the places
of email and password, unless the endpoint can read neither of two requests: then both are refused
and leave the same behind, but the reader's words are about each text. -/
theorem handleFrame_congr (hroutes : b.http.routes.Ordinary) {frame frame' : List UInt8}
    (h : decodeOctets? LocalRequest.decode frame = some r)
    (h' : decodeOctets? LocalRequest.decode frame' = some r') (hpath : r.path = r'.path)
    (halike : AlikeButSender r.request r'.request) (hwithin : b.Within (r.withNonce s.mint.1))
    (hwithin' : b.Within (r'.withNonce s.mint.1)) :
    b.handleFrame frame s = b.handleFrame frame' s ∨
      ∃ (route : Route) (R : Type) (kind : RequestKind R) (id : String) (t : Server),
        b.Garbled frame r s route kind id t ∧ b.Garbled frame' r' s route kind id t := by
  have hpath' : (r.withNonce s.mint.1).path = (r'.withNonce s.mint.1).path := hpath
  by_cases hcall : ∀ endpoint, b.Reaches (r.withNonce s.mint.1) endpoint →
      Http.callRoute b.http endpoint (toPublic (r.withNonce s.mint.1)).body (entered s) =
        Http.callRoute b.http endpoint (toPublic (r'.withNonce s.mint.1)).body (entered s)
  · exact .inl (handleFrame_congr_of_forward h h' (forward_congr hpath' hcall))
  -- Somebody answers the two in different ways, so a route is asked, which can read neither.
  simp only [not_forall] at hcall
  obtain ⟨endpoint, hreach, hdiffer⟩ := hcall
  have hreach' : b.Reaches (r'.withNonce s.mint.1) endpoint := by rwa [Reaches, ← hpath']
  cases hroute : b.http.routes.resolve? endpoint with
  | none =>
    rw [Http.callRoute, Http.callRoute, read_toPublic hwithin, read_toPublic hwithin'] at hdiffer
    simp only [hroute, not_true_eq_false] at hdiffer
  | some route =>
    have hgiven := callRoute_of_within hwithin hroute (entered s)
    have hgiven' := callRoute_of_within hwithin' hroute (entered s)
    obtain ⟨R, kind, hunread, hunread'⟩ | hsame := (hroutes _ _ hroute).call_congr
      (halike.insertMember (.string s.mint.1)) s.mint_ne_empty
      (LocalRequest.showsNonce_withNonce h _) (LocalRequest.showsNonce_withNonce h' _)
    · cases hlink : b.link with
      | severed =>
        left
        exact handleFrame_congr_of_forward h h' (by rw [forward, forward, hlink, hpath'])
      | delivering =>
        by_cases hclock : s.clock.toJson?.isSome
        · exact .inr ⟨route, R, kind, _, _,
            garbled_of_unread hlink hclock h hwithin hreach hroute hunread,
            garbled_of_unread hlink hclock h' hwithin' hreach' hroute hunread'⟩
        · have hclock : ¬ s.mint.2.clock.toJson?.isSome := hclock
          have hback := forward_of_refused hlink hreach (hgiven.trans (hunread.call [] _))
          have hback' := forward_of_refused hlink hreach' (hgiven'.trans (hunread'.call [] _))
          rw [if_neg hclock] at hback hback'
          left
          exact handleFrame_congr_of_forward h h' (by rw [hback, hback', hpath']; rfl)
    · exact absurd (hgiven.trans ((hsame [] _).trans hgiven'.symm)) hdiffer

end Bridge
end Coursework
