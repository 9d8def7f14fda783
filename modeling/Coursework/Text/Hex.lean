import Coursework.Text

/-!
# Hexadecimal text

Digests, salts and nonces are written as lowercase hexadecimal, two digits an octet, high half
first.
-/

set_option autoImplicit false

namespace Coursework
namespace Text

def hexDigit (n : Nat) : Char :=
  if n < 10 then Char.ofNat (48 + n) else Char.ofNat (87 + n)

def hexValue? (c : Char) : Option Nat :=
  let n := c.toNat
  if 48 ≤ n ∧ n ≤ 57 then some (n - 48)
  else if 97 ≤ n ∧ n ≤ 102 then some (n - 87)
  else if 65 ≤ n ∧ n ≤ 70 then some (n - 55)
  else none

def isHexDigit (c : Char) : Bool :=
  (hexValue? c).isSome

def hexOctet (b : UInt8) : List Char :=
  [hexDigit (b.toNat / 16), hexDigit (b.toNat % 16)]

def hex (octets : List UInt8) : String :=
  String.ofList (octets.flatMap hexOctet)

theorem hex_cons_ne_empty (b : UInt8) (octets : List UInt8) : hex (b :: octets) ≠ "" := by
  intro h
  have hchars := congrArg String.toList h
  rw [hex, String.toList_ofList] at hchars
  cases hchars

/-- The octets that pairs of digits stand for, by `hexValue?` and so in either case; none when a
digit is bad or left over. -/
def unhexChars? : List Char → List UInt8 → Option (List UInt8)
  | [], found => some found.reverse
  | [_], _ => none
  | high :: low :: rest, found =>
    match hexValue? high, hexValue? low with
    | some h, some l => unhexChars? rest (UInt8.ofNat (16 * h + l) :: found)
    | _, _ => none

def unhex? (s : String) : Option (List UInt8) :=
  unhexChars? s.toList []

/-- A number below `2 ^ 64` as sixteen digits: the bits of a double, where it has to be told apart
from its neighbours. -/
def hexWord (n : Nat) : String :=
  String.ofList ((List.range 16).map fun i => hexDigit ((n >>> (4 * (15 - i))) % 16))

end Text
end Coursework
