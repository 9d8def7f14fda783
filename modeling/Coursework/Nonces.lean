import Coursework.Entropy

/-!
# Nonces

A nonce lets one request run as root.  It is minted for a local request, which holds a guard for as
long as it runs; it is spent by the first request that shows it, and it is void once the guard is
given up.
-/

set_option autoImplicit false

namespace Coursework

/-- The nonces that are live: minted, not spent yet, and their guard not given up. -/
structure Nonces where
  live : List String
deriving DecidableEq, Repr

namespace Nonces

/-- The number of random octets in a nonce, which is twice as many characters. -/
def octetCount : Nat := 64

def empty : Nonces := ⟨[]⟩

instance : Inhabited Nonces := ⟨empty⟩

def contains (s : Nonces) (nonce : String) : Bool :=
  s.live.contains nonce

def count (s : Nonces) : Nat :=
  s.live.length

def insert (s : Nonces) (nonce : String) : Nonces :=
  if s.contains nonce then s else ⟨nonce :: s.live⟩

def remove (s : Nonces) (nonce : String) : Nonces :=
  ⟨s.live.filter fun n => n != nonce⟩

/-- Mint a nonce from fresh octets (`octetCount` of them); its holder is its guard. -/
def mint (s : Nonces) (e : Entropy) : String × Nonces × Entropy :=
  let (nonce, e) := e.drawHex octetCount
  (nonce, s.insert nonce, e)

/-- Spend a nonce, and say whether it was live.  The empty text is never a nonce, so that a request
that shows none spends none. -/
def consume (s : Nonces) (nonce : String) : Bool × Nonces :=
  if nonce = "" then (false, s) else (s.contains nonce, s.remove nonce)

/-- Give up the guard of a nonce, which makes it void if it was not spent. -/
def release (s : Nonces) (nonce : String) : Nonces :=
  s.remove nonce

end Nonces
end Coursework
