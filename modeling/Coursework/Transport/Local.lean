import Coursework.Json.Decode
import Coursework.Json.Printer

/-!
# Requests on the local socket

A local request names an endpoint and holds an object.  Before it is passed on, its nonce is set,
whatever stood there.
-/

set_option autoImplicit false

namespace Coursework

open Json

/-- A request on the local socket: an endpoint, and the members of an object, by increasing key. -/
structure LocalRequest where
  endpoint : String
  request : List (String × Value)

namespace LocalRequest

/-- The key of the nonce, the same as in `Context`. -/
def nonceKey : String := "root-user-nonce"

def decodeMembers : Decoder (List (String × Value)) := fun s =>
  match Decode.value (depthLimit - 1) s with
  | some (.object members) => some members
  | _ => none

/-- Read a local request from a document.  The request in it has to be an object, and is kept
whole. -/
def decode : Decoder LocalRequest := fun s => do
  let f ← Decode.record? ["endpoint", "request"] s
  let endpoint ← f.required "endpoint" Decode.string
  let request ← f.required "request" decodeMembers
  some ⟨endpoint, request⟩

def toJson (r : LocalRequest) : Value :=
  .object [("endpoint", .string r.endpoint), ("request", .object r.request)]

/-- The path of the endpoint, with a slash in front, whether or not it has one already. -/
def path (r : LocalRequest) : String :=
  if r.endpoint.toList.head? = some '/' then r.endpoint else "/" ++ r.endpoint

/-- The request with a nonce, in place of whatever it has under `nonceKey`. -/
def withNonce (r : LocalRequest) (nonce : String) : LocalRequest :=
  { r with request := Value.insertMember nonceKey (.string nonce) r.request }

/-- The text that is passed on to the public listener. -/
def content (r : LocalRequest) : String :=
  (Value.object r.request).text

end LocalRequest
end Coursework
