import Coursework.Digest
import Coursework.Text.Decimal

/-!
# Random octets

Salts and nonces are drawn from a stream of octets that is given from outside.  A draw takes the
next octets of the stream, so that what was drawn once is not drawn again.
-/

set_option autoImplicit false

namespace Coursework

/-- A stream of octets, read from its `position` on.  What is random to the server is drawn from it
and nowhere else, so that a run is a function of its stream. -/
structure Entropy where
  octet : Nat → UInt8
  position : Nat

namespace Entropy

/-- A stream that is spread evenly but can be foreseen, for runs that have to come out the same. -/
def foreseeable : Entropy :=
  ⟨fun i =>
    let z := (UInt64.ofNat i + 1) * 0x9E3779B97F4A7C15
    let z := (z ^^^ (z >>> 30)) * 0xBF58476D1CE4E5B9
    let z := (z ^^^ (z >>> 27)) * 0x94D049BB133111EB
    (z ^^^ (z >>> 31)).toUInt8, 0⟩

/-- The stream that a secret stands for: the digests (`Digest.sha256`) of the secret followed by a
count, one after the other. -/
def ofSecret (secret : List UInt8) : Entropy :=
  ⟨fun i => (Digest.sha256 (secret ++ Text.utf8 (Text.decimal (i / 32)))).getD (i % 32) 0, 0⟩

def octets (e : Entropy) (n : Nat) : List UInt8 :=
  (List.range n).map fun i => e.octet (e.position + i)

def advance (e : Entropy) (n : Nat) : Entropy :=
  { e with position := e.position + n }

/-- Draw `n` octets as lowercase hexadecimal, and go on behind them. -/
def drawHex (e : Entropy) (n : Nat) : String × Entropy :=
  (Text.hex (e.octets n), e.advance n)

end Entropy
end Coursework
