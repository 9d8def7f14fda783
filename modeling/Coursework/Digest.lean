import Coursework.Text.Hex

/-!
# SHA-256

Passwords travel as digests and are stored as salted digests.  The digest is that of FIPS 180-4:
the message is padded to blocks of 64 octets, and each block is mixed into a state of eight words
in 64 rounds.
-/

set_option autoImplicit false

namespace Coursework
namespace Digest

/-! ## Words and constants -/

/-- The constants of the rounds: the first bits of the fractional parts of the cube roots of the
first sixty-four primes. -/
def roundConstants : List UInt32 :=
  [0x428a2f98, 0x71374491, 0xb5c0fbcf, 0xe9b5dba5, 0x3956c25b, 0x59f111f1, 0x923f82a4, 0xab1c5ed5,
   0xd807aa98, 0x12835b01, 0x243185be, 0x550c7dc3, 0x72be5d74, 0x80deb1fe, 0x9bdc06a7, 0xc19bf174,
   0xe49b69c1, 0xefbe4786, 0x0fc19dc6, 0x240ca1cc, 0x2de92c6f, 0x4a7484aa, 0x5cb0a9dc, 0x76f988da,
   0x983e5152, 0xa831c66d, 0xb00327c8, 0xbf597fc7, 0xc6e00bf3, 0xd5a79147, 0x06ca6351, 0x14292967,
   0x27b70a85, 0x2e1b2138, 0x4d2c6dfc, 0x53380d13, 0x650a7354, 0x766a0abb, 0x81c2c92e, 0x92722c85,
   0xa2bfe8a1, 0xa81a664b, 0xc24b8b70, 0xc76c51a3, 0xd192e819, 0xd6990624, 0xf40e3585, 0x106aa070,
   0x19a4c116, 0x1e376c08, 0x2748774c, 0x34b0bcb5, 0x391c0cb3, 0x4ed8aa4a, 0x5b9cca4f, 0x682e6ff3,
   0x748f82ee, 0x78a5636f, 0x84c87814, 0x8cc70208, 0x90befffa, 0xa4506ceb, 0xbef9a3f7, 0xc67178f2]

def turn (x : UInt32) (n : UInt32) : UInt32 :=
  (x >>> n) ||| (x <<< (32 - n))

/-- The eight words that `block` mixes the message into. -/
structure State where
  a : UInt32
  b : UInt32
  c : UInt32
  d : UInt32
  e : UInt32
  f : UInt32
  g : UInt32
  h : UInt32
deriving DecidableEq, Repr

def State.start : State :=
  ⟨0x6a09e667, 0xbb67ae85, 0x3c6ef372, 0xa54ff53a, 0x510e527f, 0x9b05688c, 0x1f83d9ab, 0x5be0cd19⟩

def State.add (s t : State) : State :=
  ⟨s.a + t.a, s.b + t.b, s.c + t.c, s.d + t.d, s.e + t.e, s.f + t.f, s.g + t.g, s.h + t.h⟩

def State.words (s : State) : List UInt32 :=
  [s.a, s.b, s.c, s.d, s.e, s.f, s.g, s.h]

/-! ## Blocks -/

def word (a b c d : UInt8) : UInt32 :=
  (a.toUInt32 <<< 24) ||| (b.toUInt32 <<< 16) ||| (c.toUInt32 <<< 8) ||| d.toUInt32

def octets (w : UInt32) : List UInt8 :=
  [(w >>> 24).toUInt8, (w >>> 16).toUInt8, (w >>> 8).toUInt8, w.toUInt8]

/-- Octets as words, in front of which stand the words found, last to first.  Octets that make no
whole word are left out; after `pad` there are none. -/
def words : List UInt8 → List UInt32 → List UInt32
  | a :: b :: c :: d :: rest, found => words rest (word a b c d :: found)
  | _, found => found.reverse

/-- The message with a one bit, zeros, and its length in bits, a multiple of 64 octets in all. -/
def pad (message : List UInt8) : List UInt8 :=
  let n := message.length
  let zeros := (119 - n % 64) % 64
  let bits : List UInt8 := (List.range 8).map fun i => UInt8.ofNat ((8 * n) >>> (8 * (7 - i)))
  message ++ (0x80 :: (List.replicate zeros 0 ++ bits))

/-- The word that follows sixteen words of the schedule, given last to first as `extend` collects
them. -/
def nextWord (w : List UInt32) : UInt32 :=
  match w with
  | _ :: w2 :: _ :: _ :: _ :: _ :: w7 :: _ :: _ :: _ :: _ :: _ :: _ :: _ :: w15 :: w16 :: _ =>
    let s0 := turn w15 7 ^^^ turn w15 18 ^^^ (w15 >>> 3)
    let s1 := turn w2 17 ^^^ turn w2 19 ^^^ (w2 >>> 10)
    w16 + s0 + w7 + s1
  | _ => 0

def extend (w : List UInt32) : Nat → List UInt32
  | 0 => w
  | n + 1 => extend (nextWord w :: w) n

/-- One round of the compression, with `roundConstants` and the schedule paired into `kw`. -/
def round (s : State) (kw : UInt32 × UInt32) : State :=
  let s1 := turn s.e 6 ^^^ turn s.e 11 ^^^ turn s.e 25
  let choice := (s.e &&& s.f) ^^^ ((~~~ s.e) &&& s.g)
  let t1 := s.h + s1 + choice + kw.1 + kw.2
  let s0 := turn s.a 2 ^^^ turn s.a 13 ^^^ turn s.a 22
  let majority := (s.a &&& s.b) ^^^ (s.a &&& s.c) ^^^ (s.b &&& s.c)
  ⟨t1 + (s0 + majority), s.a, s.b, s.c, s.d + t1, s.e, s.f, s.g⟩

/-- Mix sixteen words into the state: their schedule is extended to sixty-four words, and each
`round` takes one of them. -/
def block (s : State) (ws : List UInt32) : State :=
  let schedule := (extend ws.reverse 48).reverse
  s.add ((roundConstants.zip schedule).foldl round s)

def blocks (s : State) (ws : List UInt32) : Nat → State
  | 0 => s
  | n + 1 => blocks (block s (ws.take 16)) (ws.drop 16) n

/-- The SHA-256 digest, thirty-two octets: `pad`, then `blocks`, then the words of the final
`State`. -/
def sha256 (message : List UInt8) : List UInt8 :=
  let padded := pad message
  (blocks State.start (words padded []) (padded.length / 64)).words.flatMap octets

/-! ## Digests as text -/

def sha256Hex (message : List UInt8) : String :=
  Text.hex (sha256 message)

/-- Whether a text has the form of what `sha256Hex` answers, sixty-four hexadecimal digits, in
either case: a password as clients send it. -/
def isSha256Hex (s : String) : Bool :=
  let cs := s.toList
  cs.length == 64 && cs.all Text.isHexDigit

/-- Whether two texts are equal, found out by looking at every octet of them once their lengths
agree, so that the time it takes does not tell where they differ. -/
def sameText (a b : String) : Bool :=
  Text.size a == Text.size b
    && ((Text.utf8 a).zip (Text.utf8 b)).foldl (fun seen p => seen ||| (p.1 ^^^ p.2)) 0 == 0

end Digest
end Coursework
