import Coursework.Locks
import Coursework.Nonces

/-!
# Guards and requests under labels

Whoever drives a server step by step names the guards of nonces and the requests for locks by labels
of their own.  A label that is used again stands for the new one; the old one is given up once the
new one is there.
-/

set_option autoImplicit false

namespace Coursework

/-! ## Guards of nonces -/

/-- The nonces that labels stand for: `named` has the last nonce minted under each label, and
`guarded` those whose guards are still held. -/
structure Keyring where
  named : Table String String
  guarded : Table String String

namespace Keyring

def empty : Keyring := ⟨Table.empty, Table.empty⟩

/-- Mint a nonce under a label.  A guard that the label held before is given up after the new nonce
is there, as it is when a variable is assigned anew. -/
def mint (k : Keyring) (label : String) (s : Nonces) (e : Entropy) :
    String × Keyring × Nonces × Entropy :=
  let (nonce, s, e) := s.mint e
  let s := match k.guarded.find? label with
    | some old => s.release old
    | none => s
  (nonce, ⟨k.named.insert label nonce, k.guarded.insert label nonce⟩, s, e)

def release (k : Keyring) (label : String) (s : Nonces) : Bool × Keyring × Nonces :=
  match k.guarded.find? label with
  | some nonce => (true, { k with guarded := k.guarded.erase label }, s.release nonce)
  | none => (false, k, s)

end Keyring

/-! ## Requests for locks -/

/-- A `LockTable`, and the requests that labels stand for, by number. -/
structure LockBench where
  table : LockTable Nat
  requests : Table String Nat
  next : Nat

namespace LockBench

def empty : LockBench := ⟨.empty, Table.empty, 0⟩

/-- How a request under a label stands (`LockPhase`), if there is one. -/
def state? (b : LockBench) (label : String) : Option LockPhase :=
  (b.requests.find? label).map fun r => if b.table.isHeld r then .held else .waiting

def dropFrom (b : LockBench) (label : String) (t : LockTable Nat) : LockTable Nat :=
  match b.requests.find? label with
  | some r => t.release r
  | none => t

/-- Ask for a lock under a label; what the label stood for before is given up afterwards
(`dropFrom`). -/
def acquire (b : LockBench) (label : String) (key : SubmissionKey) : LockBench :=
  ⟨b.dropFrom label (b.table.acquire b.next key), b.requests.insert label b.next, b.next + 1⟩

def poll (b : LockBench) (label : String) : LockBench :=
  match b.requests.find? label with
  | some r => { b with table := b.table.poll r }
  | none => b

/-- Give up what a label stands for, be it a lock or a place in the line. -/
def release (b : LockBench) (label : String) : LockBench :=
  { b with table := b.dropFrom label b.table, requests := b.requests.erase label }

end LockBench
end Coursework
