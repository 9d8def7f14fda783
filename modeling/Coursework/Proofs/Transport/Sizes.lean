import Coursework.Endpoint.Shipped
import Coursework.Proofs.Transport.Root
import Coursework.Proofs.Transport.Wire

/-!
# Frames near the maximum

One number is the maximum of the frames on the local socket and of the bodies on the public
listener.  What is passed on for a frame is longer than its object: there is a nonce in it, and a
form around it.  Both take the same number of octets every time, so that the size of the object
alone decides between the endpoint and a refusal (`Bridge.size_decides`).  A frame of no more than
the maximum may well be on the wrong side.
-/

set_option autoImplicit false

namespace Coursework

open Json

/-! ## Local requests -/

namespace LocalRequest

/-- What is not there any more once a nonce is: a member in its place, or else the mark that a first
member has no need for. -/
def displaced (r : LocalRequest) : Nat :=
  match r.request.lookup nonceKey with
  | some old => Value.memberSize (nonceKey, old)
  | none => if r.request = [] then 1 else 0

/-- A nonce of 64 octets takes 149, with its key and the marks. -/
theorem memberSize_nonce {octets : List UInt8} (h : octets.length = Nonces.octetCount) :
    Value.memberSize (nonceKey, .string (Text.hex octets)) = 149 := by
  have hkey : (encode (quoted nonceKey)).length = 17 := rfl
  rw [Value.memberSize, Value.octets_eq_encode, Value.chars, length_encode_quoted_hex, h, hkey]
  rfl

theorem length_content_withNonce {r : LocalRequest} (h : KeysIncrease r.request)
    {octets : List UInt8} (hoctets : octets.length = Nonces.octetCount) :
    (Text.utf8 (r.withNonce (Text.hex octets)).content).length + r.displaced =
      (Text.utf8 r.content).length + 149 := by
  have hsum := Value.sum_memberSize_insertMember h nonceKey (.string (Text.hex octets))
  have hlong : (Text.utf8 (r.withNonce (Text.hex octets)).content).length = _ :=
    Value.length_octets_object (Value.insertMember nonceKey (.string (Text.hex octets)) r.request)
  have hshort : (Text.utf8 r.content).length = _ := Value.length_octets_object r.request
  rw [memberSize_nonce hoctets] at hsum
  rw [if_neg (Value.insertMember_ne_nil _ _ _)] at hlong
  rw [displaced, hlong, hshort]
  cases hlookup : r.request.lookup nonceKey with
  | some old =>
    have hne : r.request ≠ [] := by
      intro hnil
      rw [hnil] at hlookup
      cases hlookup
    rw [hlookup, Option.elim_some] at hsum
    dsimp only
    rw [if_neg hne]
    omega
  | none =>
    rw [hlookup, Option.elim_none] at hsum
    dsimp only
    by_cases hnil : r.request = []
    · rw [if_pos hnil, if_pos hnil]
      omega
    · rw [if_neg hnil, if_neg hnil]
      omega

/-- A frame without blanks names the endpoint, beside the object, and has 24 octets for its own
marks and keys. -/
theorem length_octets_toJson (r : LocalRequest) : r.toJson.octets.length =
    (Text.utf8 r.content).length + (encode (quoted r.endpoint)).length + 24 := by
  have hendpoint : (encode (quoted "endpoint")).length = 10 := rfl
  have hrequest : (encode (quoted "request")).length = 9 := rfl
  have hcontent : (Value.object r.request).octets.length = (Text.utf8 r.content).length := rfl
  rw [toJson, Value.length_octets_object, if_neg (List.cons_ne_nil _ _), List.map_cons,
    List.map_singleton, List.sum_cons, List.sum_singleton, Value.memberSize, Value.memberSize,
    hendpoint, hrequest, hcontent, Value.octets_eq_encode, Value.chars]
  omega

end LocalRequest

/-! ## What is passed on -/

namespace Bridge

variable {b : Bridge} {r : LocalRequest} {s : Server}

theorem length_octets_ofContent (content : String) :
    (Form.ofContent boundary content).octets.length = (Text.utf8 content).length + 196 := by
  have hboundary : (Text.utf8 boundary).length = 67 := rfl
  have hhead : (Form.contentHead ++ Head.ending).length = 50 := rfl
  rw [Form.octets_ofContent]
  simp only [List.length_append, List.length_cons, Form.delimiter] at hhead ⊢
  rw [hboundary]
  simp only [Form.dashes, List.length_cons, List.length_nil]
  have hclosing : (Text.utf8 "--\r\n").length = 4 := rfl
  omega

/-- The octets of the form that is passed on for a local request: 345 more than its object, less
what is `displaced`. -/
theorem length_passedOn (h : KeysIncrease r.request) (s : Server) :
    (Form.ofContent boundary (r.withNonce s.mint.1).content).octets.length + r.displaced =
      (Text.utf8 r.content).length + 345 := by
  have hoctets : (s.entropy.octets Nonces.octetCount).length = Nonces.octetCount := by
    rw [Entropy.octets, List.length_map, List.length_range]
  have hcontent := LocalRequest.length_content_withNonce h hoctets
  have hmint : s.mint.1 = Text.hex (s.entropy.octets Nonces.octetCount) := rfl
  rw [length_octets_ofContent, hmint]
  omega

variable {endpoint : String} {route : Route}

/-- What a request is refused with whose form is over the maximum, in the words of the form's reader
(`Wording.form`). -/
def overlong (b : Bridge) (r : LocalRequest) (s : Server) : Fault :=
  .malformedRequest
    (s.wording.form b.http.bodyLimit boundary (Form.ofContent boundary r.content).octets)

/-- A request whose form is over the maximum is refused with `overlong`, and nothing else
happens. -/
theorem callRoute_of_over (hover : ¬ b.Within r) (t : Server) :
    Http.callRoute b.http endpoint (toPublic r).body t = (.refused (b.overlong r t), t) := by
  rw [Http.callRoute, toPublic, Form.body, Form.read_of_over _ (Nat.not_le.1 hover)]
  rfl

/-- The refusal of a request over the maximum goes back as the answer to the frame. -/
theorem handleFrame_of_over {frame : List UInt8}
    (h : decodeOctets? LocalRequest.decode frame = some r) (hreach : b.Reaches r endpoint)
    (hover : ¬ b.Within (r.withNonce s.mint.1)) (hlink : b.link = .delivering)
    (hclock : s.clock.InYears) : ∃ id, (b.handleFrame frame s).1 =
      .ofFault id s.clock s.clock (b.overlong (r.withNonce s.mint.1) s) := by
  have hreach' : b.Reaches (r.withNonce s.mint.1) endpoint := hreach
  have hback := forward_of_refused hlink hreach' (callRoute_of_over hover (entered s))
  have hwritten : s.mint.2.clock.toJson?.isSome = true :=
    Option.isSome_iff_exists.2 hclock.exists_toJson?
  rw [if_pos hwritten] at hback
  exact ⟨_, by rw [handleFrame_of_decode h hback]; rfl⟩

/-- **The size of the object decides**, and not that of the frame.

* What is passed on for a frame is within the maximum (`Within`) exactly if the object, with 345
  octets more for a nonce and a form, is; less what the nonce displaces (`displaced`).
* If it is, the form is read in full and the endpoint's own route answers the object and the nonce.
* If it is not, the answer is that the request is malformed (`overlong`), and nothing else happens.
* A frame as a client makes it is passed on within the maximum exactly if it is that much shorter
  that there is room for the nonce and the form in place of its endpoint. -/
theorem size_decides {frame : List UInt8} (h : decodeOctets? LocalRequest.decode frame = some r)
    (hreach : b.Reaches r endpoint) (hroute : b.http.routes.resolve? endpoint = some route)
    (s : Server) :
    (b.Within (r.withNonce s.mint.1) ↔
      (Text.utf8 r.content).length + 345 ≤ b.http.bodyLimit + r.displaced) ∧
    (b.Within (r.withNonce s.mint.1) → ∀ t,
      Http.callRoute b.http endpoint (toPublic (r.withNonce s.mint.1)).body t =
        route.call ⟨(r.withNonce s.mint.1).content, []⟩ t) ∧
    (¬ b.Within (r.withNonce s.mint.1) →
      (∀ t, Http.callRoute b.http endpoint (toPublic (r.withNonce s.mint.1)).body t =
        (.refused (b.overlong (r.withNonce s.mint.1) t), t)) ∧
      (b.link = .delivering → s.clock.InYears → ∃ id, (b.handleFrame frame s).1 =
        .ofFault id s.clock s.clock (b.overlong (r.withNonce s.mint.1) s))) ∧
    (Daemon.requestBody? r.endpoint (.object r.request) = some frame →
      (b.Within (r.withNonce s.mint.1) ↔ frame.length + 321 ≤
        b.http.bodyLimit + (encode (quoted r.endpoint)).length + r.displaced)) := by
  have hsize := length_passedOn (LocalRequest.shaped_of_decode h).1 s
  have hiff : b.Within (r.withNonce s.mint.1) ↔
      (Text.utf8 r.content).length + 345 ≤ b.http.bodyLimit + r.displaced := by
    rw [Within]
    omega
  refine ⟨hiff, fun hwithin => callRoute_of_within hwithin hroute,
    fun hover => ⟨callRoute_of_over hover, handleFrame_of_over h hreach hover⟩, fun hframe => ?_⟩
  have hlength : frame.length = _ := Option.some.inj hframe ▸ r.length_octets_toJson
  rw [hiff]
  omega

/-! ## A request at the boundary -/

/-- A request for an endpoint of every server, with nothing in its object. -/
def bareLogin : LocalRequest :=
  ⟨"api/v03/users/auth", []⟩

def shippedBridge (limit : Nat) : Bridge where
  link := .delivering
  http := ⟨Endpoint.shippedRegistry, limit, false⟩
  base := "http://127.0.0.1:8080"

theorem decode_bareLogin :
    decodeOctets? LocalRequest.decode bareLogin.toJson.octets = some bareLogin := by
  refine LocalRequest.decodeOctets?_octets ⟨List.Pairwise.nil, trivial⟩ ⟨?_, ?_⟩ <;>
    simp [bareLogin, Value.numbers, Value.memberNumbers]

theorem reaches_bareLogin (limit : Nat) :
    (shippedBridge limit).Reaches bareLogin "/api/v03/users/auth" :=
  reaches_of_path rfl (by decide) (by decide)

theorem resolve?_bareLogin (limit : Nat) :
    (shippedBridge limit).http.routes.resolve? "/api/v03/users/auth" = some Endpoint.authRoute := by
  rfl

/-- `bareLogin` is passed on at a maximum of 346 octets, and refused at 345, though its frame has
45. -/
theorem size_decides_bareLogin :
    (∀ t, Http.callRoute (shippedBridge 346).http "/api/v03/users/auth"
        (toPublic (bareLogin.withNonce restingServer.mint.1)).body t =
      Endpoint.authRoute.call ⟨(bareLogin.withNonce restingServer.mint.1).content, []⟩ t) ∧
    ∃ id, ((shippedBridge 345).handleFrame bareLogin.toJson.octets restingServer).1 =
      .ofFault id ⟨0, 0⟩ ⟨0, 0⟩
        ((shippedBridge 345).overlong (bareLogin.withNonce restingServer.mint.1)
          restingServer) := by
  obtain ⟨hwithin, hcall, -, -⟩ := size_decides decode_bareLogin (reaches_bareLogin 346)
    (resolve?_bareLogin 346) restingServer
  obtain ⟨hover, -, hrefused, -⟩ := size_decides decode_bareLogin (reaches_bareLogin 345)
    (resolve?_bareLogin 345) restingServer
  have hsize : (Text.utf8 bareLogin.content).length = 2 := rfl
  rw [hsize] at hwithin hover
  exact ⟨hcall (hwithin.2 (by decide)), (hrefused fun h => absurd (hover.1 h) (by decide)).2 rfl
    (by decide)⟩

/-- **A frame that is accepted can be refused for its size**: one of 45 octets, for an endpoint of
every server, where the maximum is 100. -/
theorem accepted_frame_too_large :
    bareLogin.toJson.octets.length ≤ (shippedBridge 100).http.bodyLimit ∧
      decodeOctets? LocalRequest.decode bareLogin.toJson.octets = some bareLogin ∧
      (shippedBridge 100).Reaches bareLogin "/api/v03/users/auth" ∧
      ∃ id, ((shippedBridge 100).handleFrame bareLogin.toJson.octets restingServer).1 =
        .ofFault id ⟨0, 0⟩ ⟨0, 0⟩
          ((shippedBridge 100).overlong (bareLogin.withNonce restingServer.mint.1)
            restingServer) := by
  have hsize := length_passedOn (r := bareLogin) List.Pairwise.nil restingServer
  have hcontent : (Text.utf8 bareLogin.content).length = 2 := rfl
  have hdisplaced : bareLogin.displaced = 1 := rfl
  have hover : ¬ (shippedBridge 100).Within (bareLogin.withNonce restingServer.mint.1) := by
    have hlimit : (shippedBridge 100).http.bodyLimit = 100 := rfl
    rw [Within]
    omega
  exact ⟨by decide, decode_bareLogin, reaches_bareLogin 100,
    handleFrame_of_over decode_bareLogin (reaches_bareLogin 100) hover rfl (by decide)⟩

end Bridge
end Coursework
