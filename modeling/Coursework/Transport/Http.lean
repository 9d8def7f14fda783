import Coursework.Service.Route
import Coursework.Transport.Envelope
import Coursework.Transport.Form
import Coursework.Transport.Pattern
import Coursework.Transport.Trace

/-!
# The public listener

`handle` answers one HTTP request.  Every endpoint takes forms by POST, under the paths of its
pattern, and the counters are read by GET; the two may share a path.  A path that nobody serves gets
an envelope of its own, and a method that a path does not know gets an empty answer.  A handler that
breaks down is answered for, but not counted.
-/

set_option autoImplicit false

namespace Coursework
namespace Http

open Json

structure Request where
  method : String
  path : String
  body : Body
  trace : Option String

/-- The name under which an answer goes back: none, the client's, or a new one. -/
inductive TraceEcho where
  | absent
  | client (id : String)
  | generated (id : String)
deriving DecidableEq, Repr

inductive Content where
  | empty
  | envelope (e : Envelope)
  | counters (lines : List String)

structure Response where
  status : Nat
  trace : TraceEcho
  content : Content

/-- What the listener was set up with: its `routes`, the most octets that a body may have
(`bodyLimit`), and whether it shows the counters. -/
structure Config where
  routes : Registry
  bodyLimit : Nat
  showMetrics : Bool

def metricsPath : String := "/metrics"

def metricsType : String := "text/plain; version=0.0.4; charset=utf-8"

/-- Draw a random name, such as each envelope has. -/
def drawName (s : Server) : String × Server :=
  (Envelope.nameOf (s.entropy.octets 16), { s with entropy := s.entropy.advance 16 })

/-- The envelope of a fault that was found at once, between two equal times. -/
def faultEnvelope (f : Fault) (s : Server) : Envelope × Server :=
  let (id, s) := drawName s
  (.ofFault id s.clock s.clock f, s)

/-- Read a request for an endpoint out of its body (`Form.read`) and let the route answer it. -/
def callRoute (c : Config) (endpoint : String) (body : Body) (s : Server) : Reply × Server :=
  match Form.read s.wording c.bodyLimit body with
  | .error f => (.refused f, s)
  | .ok raw =>
    match c.routes.resolve? endpoint with
    | none => (.refused (.unknownEndpoint endpoint), s)
    | some r => r.call raw s

/-- Answer a request for an endpoint by an envelope, and count it; none, and nothing is counted,
when the handler breaks down. -/
def dispatch (c : Config) (endpoint : String) (body : Body) (s : Server) :
    Option Envelope × Server :=
  let start := s.clock
  let (reply, s) := callRoute c endpoint body s
  let (id, s) := drawName s
  match reply with
  | .crashed => (none, s)
  | .content v =>
    (some (.ofContent id start s.clock v),
      { s with metrics := s.metrics.countRequest endpoint none })
  | .refused f =>
    (some (.ofFault id start s.clock f),
      { s with metrics := s.metrics.countRequest endpoint (some f.locator) })

/-- The name under which the answer to a request goes back: the client's, as far as
`Trace.ofHeader?` takes it, or else a new one. -/
def echo (trace : Option String) (s : Server) : TraceEcho × Server :=
  match Trace.ofHeader? trace with
  | some id => (.client id, s)
  | none =>
    let (id, s) := drawName s
    (.generated id, s)

def enveloped (trace : TraceEcho) (e : Envelope) : Response :=
  ⟨e.statusCode, trace, .envelope e⟩

/-- What a path is served with: the endpoint that answers forms, if one does, and the counters,
which may be at the same path. -/
structure Resource where
  endpoint : Option String
  counters : Bool
deriving DecidableEq, Repr

/-- What a path is served with, if it is served: of the endpoints whose patterns take the path, the
one that goes first (`Pattern.choose?`). -/
def resource? (c : Config) (path : String) : Option Resource :=
  let counters := if c.showMetrics then [metricsPath] else []
  (Pattern.choose? (c.routes.endpoints ++ counters) path).map fun e =>
    ⟨if c.routes.contains e then some e else none, c.showMetrics && e == metricsPath⟩

/-- Answer a request for an endpoint, also when the handler breaks down (`Fault.brokenDown`). -/
def post (c : Config) (endpoint : String) (body : Body) (trace : TraceEcho) (s : Server) :
    Response × Server :=
  match dispatch c endpoint body s with
  | (some e, s) => (enveloped trace e, s)
  | (none, s) =>
    let (e, s) := faultEnvelope .brokenDown s
    (enveloped .absent e, s)

/-- Answer one request, by its path and its method. -/
def handle (c : Config) (r : Request) (s : Server) : Response × Server :=
  let (trace, s) := echo r.trace s
  match resource? c r.path with
  | none =>
    let (e, s) := faultEnvelope (.unknownEndpoint r.path) s
    (enveloped trace e, s)
  | some resource =>
    match r.method, resource.endpoint, resource.counters with
    | "POST", some endpoint, _ => post c endpoint r.body trace s
    | "GET", _, true => (⟨200, trace, .counters (s.metrics.lines s.nonces.count)⟩, s)
    | "HEAD", _, true => (⟨200, trace, .empty⟩, s)
    | _, _, _ => (⟨405, trace, .empty⟩, s)

end Http
end Coursework
