import Coursework.Console
import Std.Time.DateTime

/-!
# The command line

Reads the settings and the seed, and answers the lines of standard input until they end.
-/

set_option autoImplicit false

namespace Coursework
namespace Console

open Time

def secretSize : USize := 32

def present : IO Moment := do
  let t ← Std.Time.Timestamp.now
  pure ⟨t.toNanosecondsSinceUnixEpoch.val, 0⟩

/-- A stream of octets that nobody can foresee: `Entropy.ofSecret` of a secret from the operating
system. -/
def unforeseen : IO Entropy := do
  pure (.ofSecret (← IO.getRandomBytes secretSize).toList)

def contents? (path : String) : IO (Option (List UInt8)) := do
  try pure (some (← IO.FS.readBinFile path).toList)
  catch _ => pure none

def contents (path : String) : IO (List UInt8) := do
  match ← contents? path with
  | some octets => pure octets
  | none => throw (.userError ("cannot read " ++ path))

/-- Answer the lines of standard input until they end, each by `Console.answer` and with an entropy
of its own. -/
partial def serve (s : Settings) (server : Server) : IO Unit := do
  let line ← (← IO.getStdin).getLine
  if line.isEmpty then pure ()
  else
    let server := { server with clock := ← present, entropy := ← unforeseen }
    let (text, server) := answer s line server
    IO.println text
    serve s server

def run (o : Options) : IO Unit := do
  let s ← IO.ofExcept (settings (← contents? o.config))
  let seed ← s.seedPath.mapM contents
  let server ← IO.ofExcept (prepare s seed (← present) (← unforeseen))
  serve s server

end Console
end Coursework

def main (args : List String) : IO UInt32 := do
  match Coursework.Console.Options.ofArguments? args with
  | none =>
    IO.eprintln Coursework.Console.usage
    pure 2
  | some o =>
    Coursework.Console.run o
    pure 0
