import Coursework.Transport.Http
import Coursework.Transport.Local
import Coursework.Transport.Url

/-!
# From the local socket to the public listener

Whoever can open the local socket is trusted.  The bridge mints a nonce for a local request, puts it
into the request, and passes that on to the public listener as a form; the request then runs as
root. The nonce is void again when the bridge answers, whether it was spent or not.

The way to the public listener is a `Link`, which delivers what is passed on or does not.  The
answer comes back as octets, out of which the bridge reads an envelope again.
-/

set_option autoImplicit false

namespace Coursework

open Json

/-- The way from the bridge to the public listener, on which what is sent arrives, or nothing
does. -/
inductive Link where
  | delivering
  | severed
deriving DecidableEq, Repr

/-- A bridge to the public listener `http` at the other end of a `link`, under an address without a
slash at its end. -/
structure Bridge where
  link : Link
  http : Http.Config
  base : String

namespace Bridge

/-- The boundary of a form that is passed on. -/
def boundary : String :=
  Text.join "-" (List.replicate 4 "0123456789abcdef")

/-- A local request as one to the public listener: a form with the content and no files, sent to the
path that `Url.path` makes of the endpoint. -/
def toPublic (r : LocalRequest) : Http.Request where
  method := "POST"
  path := Url.path r.path
  body := (Form.ofContent boundary r.content).body
  trace := none

/-- The envelope that is read out of an answer.  There is none in an answer that holds something
else, nor in one whose envelope cannot be written. -/
def received? (response : Http.Response) : Option Envelope :=
  match response.content with
  | .envelope e => e.toJson?.bind fun v => decodeOctets? Envelope.decode v.octets
  | _ => none

/-- Pass a request on and wait for the envelope.  What the public listener did to the server stays,
also where no envelope is `received?` from it. -/
def forward (b : Bridge) (r : LocalRequest) (s : Server) : Except Fault Envelope × Server :=
  match b.link with
  | .severed =>
    (.error (.forwardFailed (s.wording.unsent (b.base ++ Url.path r.path))), s)
  | .delivering =>
    let (response, u) := Http.handle b.http (toPublic r) s
    match received? response with
    | some e => (.ok e, u)
    | none => (.error (.forwardFailed (s.wording.unreadable (b.base ++ Url.path r.path))), u)

/-- Answer one frame.  A frame that holds a `LocalRequest` is passed on with a fresh nonce in it,
which is void again when the answer is there; any other is refused at once. -/
def handleFrame (b : Bridge) (frame : List UInt8) (s : Server) : Envelope × Server :=
  let start := s.clock
  match decodeOctets? LocalRequest.decode frame with
  | none => Http.faultEnvelope (.malformedRequest (s.wording.document "LocalRequest" frame)) s
  | some r =>
    let (nonce, s) := s.mint
    let (answer, s) := b.forward (r.withNonce nonce) s
    let s := { s with nonces := s.nonces.release nonce }
    match answer with
    | .ok e => (e, s)
    | .error f =>
      let (id, s) := Http.drawName s
      (.ofFault id start s.clock f, s)

end Bridge
end Coursework
