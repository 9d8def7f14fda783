import Coursework.Endpoint.Probe
import Coursework.Endpoint.Shipped

/-!
# A bench of probes

A `Bench` adds probes to the routes of a server.  Each probe takes its schema from a numbered slot,
which can be given another schema later on; the schema that a probe was declared with stays what the
registry knows of it.
-/

set_option autoImplicit false

namespace Coursework
namespace Endpoint

/-- A probe before it is registered: its endpoint, the `slot` that its schema is taken from, and
what it does. -/
structure ProbeSpec where
  endpoint : String
  schema : Schema
  slot : Nat
  mode : ProbeMode
  plain : Bool

/-- The routes of a server with probes among them: the `base` without probes, the `probes` that were
taken in, and the schema that each slot has at present. -/
structure Bench where
  base : Registry
  probes : List ProbeSpec
  schemas : Table Nat Schema

/-- The slot that all plain probes share. -/
def plainSlot : Nat := 7

namespace ProbeSpec

/-- The route of a probe, declared with the schema that it was given and run with the one that is in
its slot now. -/
def route (p : ProbeSpec) (schemas : Table Nat Schema) : Route :=
  probeRoute p.endpoint p.schema ((schemas.find? p.slot).getD p.schema) p.mode p.plain

end ProbeSpec

namespace Bench

def start (withShipped : Bool) : Bench :=
  ⟨if withShipped then shippedRegistry else Table.empty, [], Table.empty⟩

def registry (b : Bench) : Registry :=
  b.probes.foldl (fun t p => t.insert p.endpoint (p.route b.schemas)) b.base

def setSchema (b : Bench) (slot : Nat) (s : Schema) : Bench :=
  { b with schemas := b.schemas.insert slot s }

def register (b : Bench) (p : ProbeSpec) : Except RegistryError Unit × Bench :=
  let b := b.setSchema p.slot p.schema
  match b.registry.register (p.route b.schemas) with
  | .error e => (.error e, b)
  | .ok _ => (.ok (), { b with probes := b.probes ++ [p] })

/-- Take in probes one by one (`register`), each with its result, whatever becomes of the others. -/
def registerEach (b : Bench) : List ProbeSpec → List (Except RegistryError Unit) × Bench
  | [] => ([], b)
  | p :: rest =>
    let (result, b) := b.register p
    let (results, b) := registerEach b rest
    (result :: results, b)

/-- Take in probes up to the first that is refused; the schemas of all go into their slots. -/
def registerTogether (b : Bench) : List ProbeSpec → Except RegistryError Unit × Bench
  | [] => (.ok (), b)
  | p :: rest =>
    match b.register p with
    | (.error e, b) => (.error e, rest.foldl (fun b p => b.setSchema p.slot p.schema) b)
    | (.ok (), b) => registerTogether b rest

end Bench
end Endpoint
end Coursework
