import Coursework.Store.Basic

/-!
# Submission locks

Two submissions of one user to one assignment must not be admitted at the same time.  A request
takes the lock of its key before it looks at the history and gives it up after it has recorded the
outcome.

A `LockTable` makes a mutex when a key is first asked for and drops it once nobody refers to it.  A
mutex is fair: who gives it up hands it to the request that has waited longest, which holds it from
then on but learns of it only when it looks again (`poll`).  A request that goes away in between
passes the mutex on.

To ask for a lock (`acquire`) is to refer to the mutex of the key, to ask that mutex, and to look;
to give one up (`release`) is to leave the mutex and then to clean up.  Other requests may come in
between these parts.

Requests are named by values of any type `ρ`.
-/

set_option autoImplicit false

namespace Coursework

/-- A fair mutex: the request whose `turn` it is, and the `queue` of those that wait, the longest
first. -/
structure Mutex (ρ : Type) where
  turn : Option ρ
  queue : List ρ
deriving DecidableEq, Repr

namespace Mutex

variable {ρ : Type} [DecidableEq ρ]

def free : Mutex ρ := ⟨none, []⟩

/-- A request asks.  It is its turn at once if it is nobody's, and else it goes to the end of the
`queue`. -/
def enter (m : Mutex ρ) (r : ρ) : Mutex ρ :=
  match m.turn with
  | none => ⟨some r, m.queue⟩
  | some _ => ⟨m.turn, m.queue ++ [r]⟩

/-- A request goes away.  Its turn passes to the one that has waited longest, which need not know of
it yet; a request that only waited leaves the `queue`. -/
def leave (m : Mutex ρ) (r : ρ) : Mutex ρ :=
  if m.turn = some r then
    match m.queue with
    | [] => ⟨none, []⟩
    | q :: rest => ⟨some q, rest⟩
  else ⟨m.turn, m.queue.filter fun q => decide (q ≠ r)⟩

end Mutex

/-- How a request stands to the lock it asked for: `held` once it has learnt that it is its turn,
and `waiting` before, also while the turn is already its own. -/
inductive LockPhase where
  | waiting
  | held
deriving DecidableEq, Repr

/-- What a request asked for: the `key`, and the number of the `mutex` that the key had at the
time. -/
structure LockClaim where
  key : SubmissionKey
  mutex : Nat
  phase : LockPhase
deriving DecidableEq, Repr

/-- The locks of all keys, with the requests that hold them or wait.  The table `entries` has the
number of the mutex of each key and `mutexes` the mutexes by number; `claims` are the requests, and
`next` is the number of the mutex made next. -/
structure LockTable (ρ : Type) where
  entries : Table SubmissionKey Nat
  mutexes : Table Nat (Mutex ρ)
  claims : Table ρ LockClaim
  next : Nat
deriving DecidableEq

namespace LockTable

variable {ρ : Type} [DecidableEq ρ]

def empty : LockTable ρ :=
  ⟨Table.empty, Table.empty, Table.empty, 0⟩

instance : Inhabited (LockTable ρ) := ⟨empty⟩

/-- The mutex with a number, which is `Mutex.free` if it was dropped or never made. -/
def mutex (t : LockTable ρ) (n : Nat) : Mutex ρ :=
  (t.mutexes.find? n).getD Mutex.free

def isHeld (t : LockTable ρ) (r : ρ) : Bool :=
  match t.claims.find? r with
  | some c => c.phase == .held
  | none => false

def isKnown (t : LockTable ρ) (r : ρ) : Bool :=
  t.claims.contains r

/-- The number of keys that have a mutex, whether or not anybody holds or waits. -/
def tracked (t : LockTable ρ) : Nat :=
  t.entries.size

/-- The number of the mutex of a key, in a table that has one for it: a new one is made if there is
none. -/
def mutexFor (t : LockTable ρ) (key : SubmissionKey) : Nat × LockTable ρ :=
  match t.entries.find? key with
  | some n => (n, t)
  | none =>
    (t.next, { t with
      entries := t.entries.insert key t.next
      mutexes := t.mutexes.insert t.next Mutex.free
      next := t.next + 1 })

/-- The first part of `acquire`: a request that is not known yet refers to the mutex of a key. -/
def refer (t : LockTable ρ) (r : ρ) (key : SubmissionKey) : LockTable ρ :=
  if t.isKnown r then t
  else
    let (n, t) := t.mutexFor key
    { t with claims := t.claims.insert r ⟨key, n, .waiting⟩ }

/-- The second part of `acquire`: a request asks the mutex that it refers to. -/
def enter (t : LockTable ρ) (r : ρ) : LockTable ρ :=
  match t.claims.find? r with
  | none => t
  | some c => { t with mutexes := t.mutexes.insert c.mutex ((t.mutex c.mutex).enter r) }

/-- The third part of `acquire`, which may be repeated: a request looks whether it is its turn by
now. -/
def poll (t : LockTable ρ) (r : ρ) : LockTable ρ :=
  match t.claims.find? r with
  | none => t
  | some c =>
    if (t.mutex c.mutex).turn = some r then
      { t with claims := t.claims.insert r { c with phase := .held } }
    else t

/-- A request that is not known yet asks for the lock of a key: it refers to the mutex (`refer`),
asks it (`enter`) and looks (`poll`). -/
def acquire (t : LockTable ρ) (r : ρ) (key : SubmissionKey) : LockTable ρ :=
  if t.isKnown r then t else ((t.refer r key).enter r).poll r

/-- Whether any of the `claims` refers to the mutex `n`. -/
def referred (t : LockTable ρ) (n : Nat) : Bool :=
  t.claims.entries.any fun e => e.2.mutex == n

/-- Drop the mutex of a key if nobody refers to it (`referred`).  A mutex that is somebody's stays,
and whoever releases it then comes here again. -/
def prune (t : LockTable ρ) (key : SubmissionKey) : LockTable ρ :=
  match t.entries.find? key with
  | none => t
  | some n =>
    if t.referred n then t
    else { t with entries := t.entries.erase key, mutexes := t.mutexes.erase n }

/-- The first part of `release`: a request refers to its mutex no longer, and its turn passes on. -/
def leave (t : LockTable ρ) (r : ρ) : LockTable ρ :=
  match t.claims.find? r with
  | none => t
  | some c => { t with
      mutexes := t.mutexes.insert c.mutex ((t.mutex c.mutex).leave r)
      claims := t.claims.erase r }

/-- A request gives up its lock, or stops waiting (`leave`).  Only one that had the lock cleans up
behind it (`prune`), so that the entry of a key can outlive a request that stopped waiting. -/
def release (t : LockTable ρ) (r : ρ) : LockTable ρ :=
  match t.claims.find? r with
  | none => t
  | some c =>
    match c.phase with
    | .held => (t.leave r).prune c.key
    | .waiting => t.leave r

end LockTable
end Coursework
