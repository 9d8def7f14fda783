import Coursework.Request.Materialize

/-!
# Routes

A `Route` answers the requests to one endpoint.  The `Registry` holds the routes of a server: a
route is taken in once its schema makes sense and its endpoint is free, and stays from then on.
-/

set_option autoImplicit false

namespace Coursework

open Json Time

/-- The answer of a route: the `content` that it carried a request out with, the fault by which it
`refused` it, or nothing since its handler `crashed`. -/
inductive Reply where
  | content (v : Value)
  | refused (f : Fault)
  | crashed

namespace Reply

/-- Content that has to be written, which a time in it may prevent; in `canonical` form, as it
travels. -/
def ofContent : Except Unwritable Value → Reply
  | .ok v => .content v.canonical
  | .error part =>
    .refused (.internal ("failed to encode response: The " ++ part.name
      ++ " component cannot be formatted into the requested format."))

/-- Content, or a fault. -/
def ofResult : Except Fault (Except Unwritable Value) → Reply
  | .ok v => ofContent v
  | .error f => .refused f

end Reply

/-- A route: an endpoint, the schema it was declared with, and what it does to a server. -/
structure Route where
  endpoint : String
  schema : Schema
  call : RawRequest → Server → Reply × Server

namespace Route

/-- Materialize a request, hand it to `handler`, and remove the directories that were made for it.
A request that is not materialized is refused, and no handler sees it. -/
def run {R : Type} (kind : RequestKind R) (handler : Materialized R → Server → Reply × Server)
    (raw : RawRequest) (s : Server) : Reply × Server :=
  match Request.materialize kind raw s with
  | (.error f, s) => (.refused f, s)
  | (.ok m, s) =>
    let (reply, s) := handler m s
    (reply, { s with disk := UploadSet.discardAll m.uploads s.disk })

/-- The route of a type of request and its handler, which is `run` for them. -/
def of {R : Type} (endpoint : String) (kind : RequestKind R)
    (handler : Materialized R → Server → Reply × Server) : Route :=
  ⟨endpoint, kind.schema, run kind handler⟩

def path (suffix : String) : String :=
  "/api/v03/" ++ String.ofList (suffix.toList.dropWhile (· == '/'))

end Route

/-- Why a route is not taken in: its endpoint has one already, or its schema makes no sense
(`Schema.validate`). -/
inductive RegistryError where
  | duplicate (endpoint : String)
  | invalidSchema (endpoint : String) (fault : Fault)
deriving DecidableEq, Repr

def RegistryError.message : RegistryError → String
  | duplicate endpoint => "endpoint already registered: " ++ endpoint
  | invalidSchema endpoint fault =>
    "endpoint " ++ endpoint ++ " has an invalid schema (" ++ fault.locator.code ++ "): "
      ++ fault.message

/-- The routes of a server, by endpoint.  Endpoints are compared as they are, with their slashes and
their case. -/
abbrev Registry := Table String Route

namespace Registry

def resolve? (t : Registry) (endpoint : String) : Option Route :=
  t.find? endpoint

/-- Take in a route, if its endpoint is free and its schema makes sense; else nothing changes. -/
def register (t : Registry) (r : Route) : Except RegistryError Registry :=
  match r.schema.validate with
  | .error f => .error (.invalidSchema r.endpoint f)
  | .ok () =>
    if t.contains r.endpoint then .error (.duplicate r.endpoint)
    else .ok (t.insert r.endpoint r)

/-- Take in routes up to the first that is refused (`register`); those before it stay. -/
def registerAll (t : Registry) : List Route → Except RegistryError Unit × Registry
  | [] => (.ok (), t)
  | r :: rest =>
    match register t r with
    | .error e => (.error e, t)
    | .ok t => registerAll t rest

/-- The endpoints in order. -/
def endpoints (t : Registry) : List String :=
  t.keys.mergeSort fun a b => decide (a ≤ b)

def routes (t : Registry) : List Route :=
  (t.sorted fun a b => decide (a ≤ b)).map Prod.snd

end Registry
end Coursework
