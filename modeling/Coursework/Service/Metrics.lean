import Coursework.Admission
import Coursework.Fault

/-!
# Counters

The server counts requests by endpoint and outcome, admitted and refused submissions, and local
connections.  The counters are shown as lines of text, a name with labels and a number on each.
-/

set_option autoImplicit false

namespace Coursework

/-- The counters: finished requests by endpoint and outcome, admitted and rejected submissions, the
latter by reason, and connections on the local socket. -/
structure Metrics where
  requests : Table (String × String) Nat
  admitted : Nat
  rejected : Table String Nat
  localConnections : Nat
deriving DecidableEq

namespace Metrics

def zero : Metrics :=
  ⟨Table.empty, 0, Table.empty, 0⟩

instance : Inhabited Metrics := ⟨zero⟩

def bump {κ : Type} [DecidableEq κ] (t : Table κ Nat) (k : κ) : Table κ Nat :=
  t.insert k ((t.find? k).getD 0 + 1)

/-- The outcome of a request, as it is counted: by its locator, or as a success. -/
def outcome : Option Locator → String
  | none => "ok"
  | some l => l.code

/-- Count a finished request under its endpoint and its `outcome`. -/
def countRequest (m : Metrics) (endpoint : String) (fault : Option Locator) : Metrics :=
  { m with requests := bump m.requests (endpoint, outcome fault) }

def countAdmitted (m : Metrics) : Metrics :=
  { m with admitted := m.admitted + 1 }

/-- Count a refused submission under its `Rejection.label`. -/
def countRejected (m : Metrics) (r : Rejection) : Metrics :=
  { m with rejected := bump m.rejected r.label }

def countLocalConnection (m : Metrics) : Metrics :=
  { m with localConnections := m.localConnections + 1 }

/-! ## Text -/

def labelText (s : String) : String :=
  String.ofList (s.toList.flatMap fun c =>
    if c = '\\' then ['\\', '\\'] else if c = '"' then ['\\', '"']
    else if c = '\n' then ['\\', 'n'] else [c])

def line (name : String) (labels : List (String × String)) (n : Nat) : String :=
  let pairs := labels.map fun l => l.1 ++ "=\"" ++ labelText l.2 ++ "\""
  let shown := if labels.isEmpty then "" else "\x7b" ++ Text.join "," pairs ++ "\x7d"
  name ++ shown ++ " " ++ Text.decimal n

def byEndpoint (m : Metrics) : Table String Nat :=
  m.requests.entries.foldl
    (fun t e => t.insert e.1.1 ((t.find? e.1.1).getD 0 + e.2)) Table.empty

/-- The lines of all counters in order, with the number of live nonces, in the form that monitoring
reads. -/
def lines (m : Metrics) (liveNonces : Nat) : List String :=
  let all :=
    [line "grader_active_nonces" [] liveNonces,
      line "grader_local_connections_total" [] m.localConnections,
      line "grader_submissions_admitted_total" [] m.admitted]
    ++ (m.requests.entries.map fun e =>
      line "grader_requests_total" [("endpoint", e.1.1), ("locator", e.1.2)] e.2)
    ++ (m.byEndpoint.entries.map fun e =>
      line "grader_request_duration_seconds_count" [("endpoint", e.1)] e.2)
    ++ (m.rejected.entries.map fun e =>
      line "grader_submissions_rejected_total" [("reason", e.1)] e.2)
  all.mergeSort fun a b => decide (a ≤ b)

end Metrics
end Coursework
