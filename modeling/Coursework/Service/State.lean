import Coursework.Locks
import Coursework.Nonces
import Coursework.Service.Grading
import Coursework.Service.Metrics
import Coursework.Service.Wording
import Coursework.Store.Backend

/-!
# The state of a server

Everything that requests share: the store, the live nonces, the locks, the files, the clock, random
octets, the grader and the counters.
-/

set_option autoImplicit false

namespace Coursework

open Time

/-- What requests share: the store behind its `backend`, locks, nonces, disk, clock, grader and
counters.  The `jobs` that the grader was given are kept in order, to look them up later; requests
that take a lock are numbered by `nextRequest`; the `wording` is that of the libraries. -/
structure Server where
  backend : Backend
  nonces : Nonces
  locks : LockTable Nat
  disk : Disk
  clock : Moment
  entropy : Entropy
  grader : Grader
  metrics : Metrics
  jobs : List Job
  uploadRoot : String
  nextRequest : Nat
  wording : Wording

namespace Server

/-- A server at rest: nothing is locked, live or counted. -/
def start (store : Store) (clock : Moment) (entropy : Entropy) (grader : Grader) (disk : Disk)
    (uploadRoot : String) : Server where
  backend := ⟨store, []⟩
  nonces := .empty
  locks := .empty
  disk := disk
  clock := clock
  entropy := entropy
  grader := grader
  metrics := .zero
  jobs := []
  uploadRoot := uploadRoot
  nextRequest := 0
  wording := .plain

def advance (s : Server) (nanos : Int) : Server :=
  { s with clock := ⟨s.clock.instant + nanos, s.clock.offset⟩ }

/-- Mint a nonce out of the server's own entropy (`Nonces.mint`). -/
def mint (s : Server) : String × Server :=
  let (nonce, nonces, entropy) := s.nonces.mint s.entropy
  (nonce, { s with nonces := nonces, entropy := entropy })

/-- Give a job to the grader.  The server keeps a note of it in `jobs`, and its clock moves by the
time that the job takes. -/
def grade (s : Server) (job : Job) : Except GradingFailure Points × Server :=
  (s.grader.grade job, { s.advance (s.grader.nanos job) with jobs := s.jobs ++ [job] })

def uploadCount (s : Server) : Nat :=
  s.disk.count s.uploadRoot fun n => n == .directory

end Server
end Coursework
