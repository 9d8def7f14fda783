import Coursework.Settings
import Coursework.Transport.Address
import Coursework.Transport.Bridge
import Coursework.Transport.Frame
import Coursework.Transport.Status

/-!
# Starting, stopping and calling a server

A start clears what a dead server left, binds the public address and then the local socket, and
writes the status file.  A shutdown removes the socket, and the status file if it still names this
process.

`exchange` sends one frame to the local socket and waits for the answer.  Either side hangs up on a
frame over its own maximum.
-/

set_option autoImplicit false

namespace Coursework

open Json

/-- A server that listens on an `address` and on a local socket, the latter by its `listener`, and
has left a status file. -/
structure Listening where
  address : Address
  socketPath : String
  statusPath : String
  listener : Nat
  http : Http.Config

/-- A server, and whether it listens.  The number of the `nextListener` tells sockets apart that
were bound at one path, and `ports` are those that are taken. -/
structure Daemon where
  server : Server
  listening : Option Listening
  nextListener : Nat
  ports : List Nat

/-- What a server runs on: its `processes`, the port that is handed out when any will do, and the
way from the local socket to the public listener. -/
structure Machine where
  processes : Processes
  freePort : Nat
  link : Link

/-- Why a server does not start: the public address cannot be listened on, or the local socket or
its status file is in the way. -/
inductive StartError where
  | bind (address : String)
  | transport (e : TransportError)
deriving DecidableEq, Repr

namespace Daemon

def socketNameSize : Nat := 32

/-- A path for a local socket that nobody else uses, made of `socketNameSize` random octets. -/
def randomSocketPath (e : Entropy) : String × Entropy :=
  let (name, e) := e.drawHex socketNameSize
  ("/tmp/grader-" ++ name ++ ".sock", e)

/-- The path of the local socket, made up by `randomSocketPath` when the settings name none. -/
def socketPath (c : ServerSettings) (s : Server) : String × Server :=
  match c.socketPath with
  | some path => (path, s)
  | none =>
    let (path, e) := randomSocketPath s.entropy
    (path, { s with entropy := e })

/-- Bind the public address.  Port zero stands for one that is free. -/
def bindPublic (m : Machine) (bind : String) (d : Daemon) : Except StartError Address :=
  match Address.parse? bind with
  | none => .error (.bind bind)
  | some a =>
    let a := if a.port = 0 then { a with port := m.freePort + d.ports.length } else a
    if a.port ∈ d.ports then .error (.bind bind) else .ok a

def withDisk (d : Daemon) (disk : Disk) : Daemon :=
  { d with server := { d.server with disk := disk } }

/-- Bind the local socket and write the status file, once the public address is bound.  If the
status file cannot be written, the socket goes again. -/
def bindLocal (m : Machine) (c : ServerSettings) (routes : Registry) (creator : String)
    (a : Address) (d : Daemon) : Except StartError Listening × Daemon :=
  let (path, s) := socketPath c d.server
  let d := { d with server := s }
  match listen d.server.disk path d.nextListener with
  | (.error e, disk) => (.error (.transport e), d.withDisk disk)
  | (.ok (), disk) =>
    match Status.write ⟨m.processes.self, path, creator⟩ disk c.statusPath with
    | (.error e, disk) => (.error (.transport e), d.withDisk (unlisten disk path))
    | (.ok (), disk) =>
      let l : Listening :=
        ⟨a, path, c.statusPath, d.nextListener, ⟨routes, c.maxFrameBytes, c.metricsEnabled⟩⟩
      (.ok l, { d.withDisk disk with
        listening := some l, nextListener := d.nextListener + 1, ports := a.port :: d.ports })

/-- Start both listeners: clear what a dead server left (`Status.clearStale`), then `bindPublic` and
`bindLocal`.  What an earlier step did stays when a later one fails. -/
def start (m : Machine) (c : ServerSettings) (routes : Registry) (creator : String) (d : Daemon) :
    Except StartError Listening × Daemon :=
  match Status.clearStale m.processes d.server.disk c.statusPath with
  | (.error e, disk) => (.error (.transport e), d.withDisk disk)
  | (.ok (), disk) =>
    let d := d.withDisk disk
    match bindPublic m c.bind d with
    | .error e => (.error e, d)
    | .ok a => bindLocal m c routes creator a d

/-- Stop both listeners, if they run, and say whether they did.  What stands at the path of the
socket goes, whoever put it there (`unlisten`), and the status file goes if it names this process
(`Status.removeOwn`). -/
def shutdown (m : Machine) (d : Daemon) : Bool × Daemon :=
  match d.listening with
  | none => (false, d)
  | some l =>
    let disk := Status.removeOwn m.processes (unlisten d.server.disk l.socketPath) l.statusPath
    (true, { d.withDisk disk with
      listening := none, ports := d.ports.filter fun p => p != l.address.port })

/-! ## Calling a server -/

/-- Why an exchange on the local socket fails: the path leads nowhere, nobody listens there, a frame
is too long for the client, or the server hung up. -/
inductive ExchangeError where
  | disk (e : DiskError)
  | connectionRefused
  | frame (e : Frame.FrameError)
  | closed
deriving DecidableEq, Repr

/-- The frame body of a request to an endpoint; none when the request is no object. -/
def requestBody? (endpoint : String) (request : Value) : Option (List UInt8) :=
  match request with
  | .object members => some (LocalRequest.toJson ⟨endpoint, members⟩).octets
  | _ => none

/-- The server that listens on a socket, which is known by the number of its listener. -/
def connect (d : Daemon) (path : String) : Except ExchangeError Listening :=
  if Disk.socketPathMax < Text.size path then .error (.disk .badPath)
  else
    match d.server.disk.lookUp path with
    | .error e => .error (.disk e)
    | .ok none => .error (.disk .notFound)
    | .ok (some (.socket n)) =>
      match d.listening with
      | some l => if l.listener = n then .ok l else .error .connectionRefused
      | none => .error .connectionRefused
    | .ok (some _) => .error .connectionRefused

/-- What a server sends back for a frame (`Bridge.handleFrame`); nothing when it hangs up over a
length, of the frame or of its own answer. -/
def respond (m : Machine) (l : Listening) (body : List UInt8) (s : Server) :
    Option (Envelope × List UInt8) × Server :=
  if l.http.bodyLimit < body.length then (none, s)
  else
    let (e, s) := Bridge.handleFrame ⟨m.link, l.http, l.address.base⟩ body s
    match e.toJson? with
    | none => (none, s)
    | some v =>
      let answer := v.octets
      if l.http.bodyLimit < answer.length then (none, s) else (some (e, answer), s)

/-- Send one frame to a socket and wait for the answer, with `clientMax` as the client's maximum. -/
def exchange (m : Machine) (path : String) (clientMax : Nat) (body : List UInt8) (d : Daemon) :
    Except ExchangeError Envelope × Daemon :=
  match d.connect path with
  | .error e => (.error e, d)
  | .ok l =>
    let s := { d.server with metrics := d.server.metrics.countLocalConnection }
    if clientMax < body.length then
      (.error (.frame .bodyTooLong), { d with server := s })
    else
      let (answer, s) := respond m l body s
      let d := { d with server := s }
      match answer with
      | none => (.error .closed, d)
      | some (e, octets) =>
        if clientMax < octets.length then (.error (.frame .announcedTooLong), d) else (.ok e, d)

end Daemon
end Coursework
