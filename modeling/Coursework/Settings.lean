import Coursework.Json.Decode
import Coursework.Text.Path

/-!
# Settings of the server
-/

set_option autoImplicit false

namespace Coursework

open Json

/-- The settings of the two listeners and of the files they use: the address `bind` of the public
one, the path of the socket of the local one (made up at random when there is none), the directory
`workDir` of the status file, and the limit `maxFrameBytes` on frames and forms alike. -/
structure ServerSettings where
  bind : String
  /-- The path of the local socket; a random one is made up when there is none. -/
  socketPath : Option String
  workDir : String
  uploadDir : Option String
  maxFrameBytes : Nat
  metricsEnabled : Bool
deriving DecidableEq, Repr

/-- The settings of the whole program: those of the server, and the document that the store is
filled from. -/
structure Settings where
  server : ServerSettings
  seedPath : Option String
deriving DecidableEq, Repr

namespace ServerSettings

def default : ServerSettings :=
  ⟨"127.0.0.1:8080", none, "./data", none, 16777216, true⟩

/-- The path of the status file, in `workDir` and under a fixed name. -/
def statusPath (c : ServerSettings) : String :=
  Text.Path.join c.workDir "status.json"

/-- The directory under which uploads are kept: `uploadDir`, or one in `workDir` when there is
none. -/
def uploadRoot (c : ServerSettings) : String :=
  c.uploadDir.getD (Text.Path.join c.workDir "uploads")

/-- Address, frame size and socket path make sense; otherwise what is wrong, in words. -/
def validate (c : ServerSettings) : Except String Unit :=
  if Text.trim c.bind = "" then .error "server.bind must not be empty"
  else if c.maxFrameBytes = 0 then .error "server.max_frame_bytes must be greater than zero"
  else if c.socketPath = some "" then
    .error "server.socket_path must not be empty when set"
  else .ok ()

def decode : Decoder ServerSettings := fun s => do
  let f ← Decode.record?
    ["bind", "socket_path", "work_dir", "upload_temp_dir", "max_frame_bytes", "metrics_enabled"] s
  let bind ← f.orElse "bind" default.bind Decode.string
  let socket ← f.orElse "socket_path" none (Decode.optional Decode.string)
  let work ← f.orElse "work_dir" default.workDir Decode.string
  let upload ← f.orElse "upload_temp_dir" none (Decode.optional Decode.string)
  let frame ← f.orElse "max_frame_bytes" default.maxFrameBytes (Decode.natUpTo Text.uint64Max)
  let metrics ← f.orElse "metrics_enabled" true Decode.bool
  some ⟨bind, socket, work, upload, frame, metrics⟩

def toJson (c : ServerSettings) : Value :=
  .object [("bind", .string c.bind), ("socket_path", .optional .string c.socketPath),
    ("work_dir", .string c.workDir), ("upload_temp_dir", .optional .string c.uploadDir),
    ("max_frame_bytes", .nat c.maxFrameBytes), ("metrics_enabled", .bool c.metricsEnabled)]

end ServerSettings

namespace Settings

def default : Settings :=
  ⟨.default, none⟩

/-- Settings for a server that keeps everything inside one directory, and listens where there is
room. -/
def within (dir : String) : Settings where
  server := {
    bind := "127.0.0.1:0"
    socketPath := some (Text.Path.join dir "grader.sock")
    workDir := dir
    uploadDir := some (Text.Path.join dir "uploads")
    maxFrameBytes := ServerSettings.default.maxFrameBytes
    metricsEnabled := false }
  seedPath := none

def validate (s : Settings) : Except String Unit :=
  s.server.validate

def decodeSeedPath : Decoder (Option String) := fun s => do
  let f ← Decode.record? ["seed_path"] s
  f.orElse "seed_path" none (Decode.optional Decode.string)

def decode : Decoder Settings := fun s => do
  let f ← Decode.record? ["server", "metadata"] s
  let server ← f.orElse "server" .default ServerSettings.decode
  let seedPath ← f.orElse "metadata" none decodeSeedPath
  some ⟨server, seedPath⟩

def toJson (s : Settings) : Value :=
  .object [("server", s.server.toJson),
    ("metadata", .object [("seed_path", .optional .string s.seedPath)])]

end Settings
end Coursework
