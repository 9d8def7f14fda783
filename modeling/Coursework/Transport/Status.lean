import Coursework.Disk
import Coursework.Json.Decode
import Coursework.Json.Printer

/-!
# The status file

A running server leaves a file that names its process and its local socket.  Whoever starts a server
looks at that file first: a live process behind it keeps others away, and what a dead one left is
cleared.
-/

set_option autoImplicit false

namespace Coursework

open Json

/-- The processes of the machine, as one of them sees them, whose own number is `self`.  Of a
positive number `running` says whether there is a process with it, whoever owns that; of 0 it says
nothing (`Status.isAlive`). -/
structure Processes where
  self : Nat
  running : Nat → Bool

/-- What a status file says: the process of the server, the path of its local socket, and the
program that started it. -/
structure Status where
  pid : Nat
  socketPath : String
  creator : String
deriving DecidableEq, Repr

/-- Why something about sockets and status files fails.  What the JSON reader says of a file that
holds no `document` of its kind goes to the log and to nobody who decides anything, so that it is
left out here and in the message. -/
inductive TransportError where
  | disk (e : DiskError)
  | document
  | notASocket (path : String)
  | alreadyRunning (pid : Nat) (path : String)
  | noStatusFile (path : String)
  | noSocketPath (path : String)
deriving DecidableEq, Repr

def TransportError.message : TransportError → String
  | disk e => "I/O error: " ++ e.message
  | document => "serialization error"
  | notASocket path => "path " ++ path ++ " exists but is not a socket"
  | alreadyRunning pid path =>
    "another server is running (pid " ++ Text.decimal pid ++ ", status file " ++ path ++ ")"
  | noStatusFile path => "status file " ++ path ++ " does not exist"
  | noSocketPath path => "status file " ++ path ++ " has no socket path"

def TransportError.ofDisk {α : Type} : Except DiskError α → Except TransportError α
  | .ok a => .ok a
  | .error e => .error (.disk e)

/-- Remove a socket that was left at a path.  Anything else there is an error, and nothing there is
none. -/
def removeStaleSocket (d : Disk) (path : String) : Except TransportError Disk :=
  match d.lookUp path with
  | .error .notFound => .ok d
  | .error e => .error (.disk e)
  | .ok none => .ok d
  | .ok (some (.socket _)) => TransportError.ofDisk (d.removeIfThere path)
  | .ok (some _) => .error (.notASocket path)

namespace Status

/-- The greatest number that a process can have. -/
def pidMax : Nat := 2147483647

def decode : Decoder Status := fun s => do
  let f ← Decode.record? ["pid", "unix_socket_path", "server_creator"] s
  let pid ← f.required "pid" (Decode.natUpTo Text.uint32Max)
  let path ← f.required "unix_socket_path" Decode.string
  let creator ← f.required "server_creator" Decode.string
  some ⟨pid, path, creator⟩

def toJson (s : Status) : Value :=
  .object [("pid", .nat s.pid), ("unix_socket_path", .string s.socketPath),
    ("server_creator", .string s.creator)]

/-- Whether the process of a status is still there, which a signal finds out that is only addressed
and not sent.  No process has a number above `pidMax`.  None has the number 0 either, but what is
addressed to it goes to the group of the caller, where it always arrives. -/
def isAlive (s : Status) (p : Processes) : Bool :=
  decide (s.pid = 0) || (decide (s.pid ≤ pidMax) && p.running s.pid)

/-- Read a status file, if it is there. -/
def read (d : Disk) (path : String) : Except TransportError (Option Status) :=
  match d.read path with
  | .error .notFound => .ok none
  | .error e => .error (.disk e)
  | .ok octets =>
    match decodeOctets? decode octets with
    | some s => .ok (some s)
    | none => .error .document

/-- The name of a file with another ending in place of what follows its last point. -/
def withEnding (name ending : String) : String :=
  match (name.toList.reverse.dropWhile (· != '.')).drop 1 with
  | [] => name ++ "." ++ ending
  | stem => String.ofList stem.reverse ++ "." ++ ending

def draftPath (path : String) : String :=
  match Text.Path.fileName? path with
  | none => path
  | some name => Text.Path.join (Disk.parent path) (withEnding name "json.tmp")

/-- Write a status file: to a draft (`draftPath`), which then takes its place, so that nobody reads
half of it. -/
def write (s : Status) (d : Disk) (path : String) : Except TransportError Unit × Disk :=
  match d.makeDirectories (Disk.parent path) with
  | (.error e, d) => (.error (.disk e), d)
  | (.ok (), d) =>
    match d.write (draftPath path) (Text.utf8 s.toJson.pretty) with
    | .error e => (.error (.disk e), d)
    | .ok d =>
      match d.rename (draftPath path) path with
      | .error e => (.error (.disk e), d)
      | .ok d => (.ok (), d)

/-- Clear what a dead server left: its socket and its status file.  A file that says nothing goes by
itself, and a live server other than the caller is left alone. -/
def clearStale (p : Processes) (d : Disk) (path : String) : Except TransportError Unit × Disk :=
  match read d path with
  | .ok none => (.ok (), d)
  | .error .document =>
    match d.removeIfThere path with
    | .ok d => (.ok (), d)
    | .error e => (.error (.disk e), d)
  | .error e => (.error e, d)
  | .ok (some s) =>
    if s.pid ≠ p.self ∧ s.isAlive p then (.error (.alreadyRunning s.pid path), d)
    else
      match removeStaleSocket d s.socketPath with
      | .error e => (.error e, d)
      | .ok d =>
        match d.removeIfThere path with
        | .ok d => (.ok (), d)
        | .error e => (.error (.disk e), d)

/-- Remove a status file that names the caller; whatever goes wrong, nobody is told. -/
def removeOwn (p : Processes) (d : Disk) (path : String) : Disk :=
  match read d path with
  | .ok (some s) =>
    if s.pid = p.self then
      match d.removeIfThere path with
      | .ok d => d
      | .error _ => d
    else d
  | _ => d

def socketOf (d : Disk) (path : String) : Except TransportError String :=
  match read d path with
  | .error e => .error e
  | .ok none => .error (.noStatusFile path)
  | .ok (some s) => if s.socketPath = "" then .error (.noSocketPath path) else .ok s.socketPath

end Status

/-! ## Listening on a socket -/

/-- Bind the socket of a listener, in place of one that was left there.  Directories that were made
on the way stay when that fails. -/
def listen (d : Disk) (path : String) (listener : Nat) : Except TransportError Unit × Disk :=
  match removeStaleSocket d path with
  | .error e => (.error e, d)
  | .ok d =>
    match d.makeDirectories (Disk.parent path) with
    | (.error e, d) => (.error (.disk e), d)
    | (.ok (), d) =>
      match d.bind path listener with
      | .error e => (.error (.disk e), d)
      | .ok d => (.ok (), d)

/-- Close a listener: what stands at its path goes, unless that is a directory. -/
def unlisten (d : Disk) (path : String) : Disk :=
  match d.removeIfThere path with
  | .ok d => d
  | .error _ => d

end Coursework
