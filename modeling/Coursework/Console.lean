import Coursework.Endpoint.Shipped
import Coursework.Store.Seed
import Coursework.Transport.Daemon

/-!
# A server at a console

Whoever sits at the console of a server is trusted just as whoever can open its local socket: each
line that is typed is the body of a frame, and the envelope that answers it is written on one line.
This file says what the arguments mean, how a server is set up, and what a line is answered with;
nothing in it reads or writes.
-/

set_option autoImplicit false

namespace Coursework
namespace Console

open Json Time

/-! ## Arguments -/

/-- What the arguments ask for: the file that holds the `Settings`. -/
structure Options where
  config : String
deriving DecidableEq, Repr

def Options.default : Options :=
  ⟨"config/server.json"⟩

def usage : String :=
  "usage: coursework [--config FILE]"

def Options.ofArguments? : List String → Option Options
  | [] => some .default
  | [name, file] => if name = "--config" ∨ name = "-c" then some ⟨file⟩ else none
  | _ => none

/-! ## Setting up -/

/-- The settings that a file holds, or `Settings.default` when there is no file; otherwise what is
wrong, in words. -/
def settings (file : Option (List UInt8)) : Except String Settings := do
  let s ← match file with
    | none => .ok Settings.default
    | some octets =>
      match decodeOctets? Settings.decode octets with
      | some s => .ok s
      | none => .error "failed to load configuration"
  match s.validate with
  | .ok () => .ok s
  | .error problem => .error ("invalid configuration: " ++ problem)

/-- A server whose store is filled from a seed, if one is given; otherwise what is wrong, in words.
A seed that fails leaves no server. -/
def prepare (s : Settings) (seed : Option (List UInt8)) (clock : Moment) (e : Entropy) :
    Except String Server :=
  let filled : Seed.Filled := match seed with
    | none => ⟨.ok (), Store.empty, e⟩
    | some text => Seed.load text e
  match filled.result with
  | .error err => .error ("failed to initialize metadata store: " ++ err.message)
  | .ok () =>
    .ok (Server.start filled.store clock filled.entropy (.unconfigured 0) Disk.empty
      s.server.uploadRoot)

/-- The bridge to the routes that every server has, with the limit of the settings on its frames. -/
def bridge (s : Settings) : Bridge where
  link := .delivering
  http := ⟨Endpoint.shippedRegistry, s.server.maxFrameBytes, s.server.metricsEnabled⟩
  base := "http://" ++ s.server.bind

/-! ## Answering -/

/-- The line that answers a line, as a frame is answered (`Bridge.handleFrame`); empty when the
answer cannot be written. -/
def answer (s : Settings) (line : String) (server : Server) : String × Server :=
  let (envelope, server) := (bridge s).handleFrame (Text.utf8 line) server
  match envelope.toJson? with
  | some v => (v.text, server)
  | none => ("", server)

end Console
end Coursework
