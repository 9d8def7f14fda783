import Coursework.Text

/-!
# Text from octets that may be damaged

Form fields are read as UTF-8 unless they begin with the mark of another encoding of Unicode.  What
cannot be read becomes a replacement character: in UTF-8 one for each longest piece that could have
begun a character, in UTF-16 one for each half of a pair that stands alone and one for an end within
a character.
-/

set_option autoImplicit false

namespace Coursework
namespace Text

/-- The character that stands for what cannot be read, in the text of a form that is not in the
encoding it says. -/
def replacement : Char := Char.ofNat 0xFFFD

/-- A character of UTF-8 in reading: its `value` so far, how many octets are `left`, and the range
from `low` to `high` that the next one has to be in.  The range is narrower than usual behind some
leading octets, which rules out spellings that are too long, surrogates and numbers beyond
Unicode. -/
structure Utf8Pending where
  value : Nat
  left : Nat
  low : UInt8
  high : UInt8

/-- What a leading octet begins: a character, a character in reading (`Utf8Pending`), or neither. -/
def utf8Lead (b : UInt8) : Char ⊕ Option Utf8Pending :=
  let n := b.toNat
  if n < 0x80 then .inl (Char.ofNat n)
  else if 0xC2 ≤ n ∧ n ≤ 0xDF then .inr (some ⟨n - 0xC0, 1, 0x80, 0xBF⟩)
  else if 0xE0 ≤ n ∧ n ≤ 0xEF then
    .inr (some ⟨n - 0xE0, 2, if n = 0xE0 then 0xA0 else 0x80, if n = 0xED then 0x9F else 0xBF⟩)
  else if 0xF0 ≤ n ∧ n ≤ 0xF4 then
    .inr (some ⟨n - 0xF0, 3, if n = 0xF0 then 0x90 else 0x80, if n = 0xF4 then 0x8F else 0xBF⟩)
  else .inr none

def utf8Begin (b : UInt8) (found : List Char) : Option Utf8Pending × List Char :=
  match utf8Lead b with
  | .inl c => (none, c :: found)
  | .inr (some p) => (some p, found)
  | .inr none => (none, replacement :: found)

/-- Read UTF-8, with a character perhaps in reading; the characters found come last to first.  What
breaks a character off is replaced once (`replacement`) and then read as the beginning of
another. -/
def lossyUtf8From (pending : Option Utf8Pending) (found : List Char) : List UInt8 → List Char
  | [] =>
    match pending with
    | none => found.reverse
    | some _ => (replacement :: found).reverse
  | b :: rest =>
    match pending with
    | none =>
      let (pending, found) := utf8Begin b found
      lossyUtf8From pending found rest
    | some p =>
      if p.low ≤ b ∧ b ≤ p.high then
        let value := p.value * 64 + (b.toNat - 0x80)
        if p.left ≤ 1 then lossyUtf8From none (Char.ofNat value :: found) rest
        else lossyUtf8From (some ⟨value, p.left - 1, 0x80, 0xBF⟩) found rest
      else
        let (pending, found) := utf8Begin b (replacement :: found)
        lossyUtf8From pending found rest

/-- Read UTF-16 units, with the first half of a pair perhaps read already.  Behind the last unit
there may stand an octet that is none (`dangling`). -/
def lossyUtf16From (dangling : Bool) (half : Option Nat) (found : List Char) : List Nat → List Char
  | [] => if half.isSome || dangling then (replacement :: found).reverse else found.reverse
  | u :: rest =>
    let isHigh := 0xD800 ≤ u ∧ u ≤ 0xDBFF
    let isLow := 0xDC00 ≤ u ∧ u ≤ 0xDFFF
    match half with
    | none =>
      if isHigh then lossyUtf16From dangling (some u) found rest
      else if isLow then lossyUtf16From dangling none (replacement :: found) rest
      else lossyUtf16From dangling none (Char.ofNat u :: found) rest
    | some h =>
      if isLow then
        lossyUtf16From dangling none
          (Char.ofNat (0x10000 + (h - 0xD800) * 0x400 + (u - 0xDC00)) :: found) rest
      else if isHigh then lossyUtf16From dangling (some u) (replacement :: found) rest
      else lossyUtf16From dangling none (Char.ofNat u :: replacement :: found) rest

/-- Octets in pairs as units, the first octet of a pair times `first` and the second times `second`,
which are 256 and 1 in either order. -/
def units16 (first second : Nat) : List UInt8 → List Nat
  | a :: b :: rest => (first * a.toNat + second * b.toNat) :: units16 first second rest
  | _ => []

def lossyUtf16 (first second : Nat) (octets : List UInt8) : List Char :=
  lossyUtf16From (octets.length % 2 == 1) none [] (units16 first second octets)

/-- The text of octets, whatever they are: by the byte order mark in front of them UTF-16 of either
kind, else UTF-8. -/
def lossy (octets : List UInt8) : String :=
  String.ofList (match octets with
    | 0xEF :: 0xBB :: 0xBF :: rest => lossyUtf8From none [] rest
    | 0xFF :: 0xFE :: rest => lossyUtf16 1 256 rest
    | 0xFE :: 0xFF :: rest => lossyUtf16 256 1 rest
    | octets => lossyUtf8From none [] octets)

end Text
end Coursework
