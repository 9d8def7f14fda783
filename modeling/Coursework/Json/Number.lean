import Coursework.Text.Decimal
import Coursework.Decimal.Shortest

/-!
# Numbers in JSON

A `Numeral` is a number as it is spelled; a `Number` is what it means: an integer when the spelling
has neither point nor exponent and the value fits a 64-bit field, and a double otherwise.  `-0` is
the double minus zero.

Doubles are read as a significand of at most 64 bits times a power of ten, which is one rounding of
the significand and one multiplication or division.  Digits that no longer fit the significand are
dropped, those before the point after counting them in the exponent.  They are written with the
fewest digits that read back.
-/

set_option autoImplicit false

namespace Coursework
namespace Json

/-- A number as it is spelled, with its digits in their order.  There is a `fraction` only if there
is a point, and an `exponent`, with its sign first, only if there is a letter for it. -/
structure Numeral where
  negative : Bool
  whole : List Nat
  fraction : Option (List Nat)
  exponent : Option (Bool × List Nat)
deriving DecidableEq, Repr

/-- A number as a value: a whole number between `-2 ^ 63` and `2 ^ 64 - 1`, or a double for any
other number. -/
inductive Number where
  /-- A whole number between `-2 ^ 63` and `2 ^ 64 - 1`. -/
  | int (n : Int)
  | float (x : Float)
deriving DecidableEq

namespace Numeral

def natural (digits : List Nat) : Nat :=
  digits.foldl (fun n d => 10 * n + d) 0

/-- Take in digits before the point as long as the significand fits 64 bits; every digit from the
first that does not counts one in the exponent. -/
def fitWhole (significand : Nat) : List Nat → Nat × Nat
  | [] => (significand, 0)
  | d :: rest =>
    if 10 * significand + d ≤ Text.uint64Max then fitWhole (10 * significand + d) rest
    else (significand, rest.length + 1)

/-- Take in digits after the point as long as the significand fits, with the number of those
taken. -/
def fitFraction (significand taken : Nat) : List Nat → Nat × Nat
  | [] => (significand, taken)
  | d :: rest =>
    if 10 * significand + d ≤ Text.uint64Max then
      fitFraction (10 * significand + d) (taken + 1) rest
    else (significand, taken)

def tenTo (n : Nat) : Float :=
  Float.ofScientific 1 false n

/-- The double nearest to a significand, scaled by a power of ten; none when it is too large. -/
def scale? (significand : Nat) (exponent : Int) : Option Float :=
  let x := Float.ofNat significand
  let n := exponent.natAbs
  if 0 ≤ exponent then
    if n ≤ 308 then
      let y := x * tenTo n
      if y.isInf then none else some y
    else if significand = 0 then some x else none
  else if n ≤ 308 then some (x / tenTo n)
  else if significand = 0 then some x
  else if n ≤ 616 then some (x / tenTo 308 / tenTo (n - 308))
  else some 0.0

def exponentMax : Nat := 2147483647

/-- The size of a numeral as a double, without its sign: the significand by `fitWhole` and
`fitFraction`, scaled by `scale?`. -/
def magnitude? (n : Numeral) : Option Float :=
  let (whole, dropped) := fitWhole 0 n.whole
  let (significand, taken) := fitFraction whole 0 (n.fraction.getD [])
  let point : Int := (dropped : Int) - taken
  match n.exponent with
  | none => scale? significand point
  | some (below, digits) =>
    let e := natural digits
    if e ≤ exponentMax then scale? significand (if below then point - e else point + e)
    else if significand = 0 ∨ below then some 0.0
    else none

def toFloat? (n : Numeral) : Option Float :=
  n.magnitude?.map fun x => if n.negative then -x else x

/-- A numeral as a whole number, when it is spelled as one, fits 64 bits and is not `-0`. -/
def toInt? (n : Numeral) : Option Int :=
  match n.fraction, n.exponent with
  | none, none =>
    let k := natural n.whole
    if n.negative then
      if 0 < k ∧ k ≤ 9223372036854775808 then some (-(k : Int)) else none
    else if k ≤ Text.uint64Max then some (k : Int) else none
  | _, _ => none

/-- What a numeral means: a whole number if `toInt?` finds one, else a double; none when it is too
large for one. -/
def toNumber? (n : Numeral) : Option Number :=
  match n.toInt? with
  | some k => some (.int k)
  | none => n.toFloat?.map .float

end Numeral

namespace Number

/-- A number where a double is asked for.  Whole numbers beyond `2 ^ 53` are rounded. -/
def toFloat : Number → Float
  | .int n => if n < 0 then -Float.ofNat n.natAbs else Float.ofNat n.natAbs
  | .float x => x

def exponentText (e : Int) : List Char :=
  if e < 0 then (Text.decimal e).toList else '+' :: (Text.decimal e).toList

/-- Lay out decimal digits with exponent `t`: positional from five places behind the point up to
sixteen digits before it, scientific beyond. -/
def layout (digits : List Char) (t : Int) : List Char :=
  let length : Int := digits.length
  let point := length + t
  if 0 ≤ t ∧ point ≤ 16 then digits ++ List.replicate t.toNat '0' ++ ['.', '0']
  else if 0 < point ∧ point ≤ 16 then
    digits.take point.toNat ++ '.' :: digits.drop point.toNat
  else if -5 < point ∧ point ≤ 0 then
    '0' :: '.' :: (List.replicate (-point).toNat '0' ++ digits)
  else
    let mantissa := if digits.length = 1 then digits else digits.take 1 ++ '.' :: digits.drop 1
    mantissa ++ 'e' :: exponentText (point - 1)

/-- A finite double in the fewest digits that read back (`Decimal.shortest`). -/
def floatText (x : Float) : List Char :=
  let bits := x.toBits.toNat
  let positive := bits % Decimal.twoTo 63
  let digits :=
    if positive = 0 then ['0', '.', '0']
    else
      let (ds, t) := Decimal.shortest positive
      layout ds t
  if bits = positive then digits else '-' :: digits

/-- A number in JSON.  Infinities and the values that are no number have no spelling and show as
`null`. -/
def text : Number → List Char
  | .int n => (Text.decimal n).toList
  | .float x => if x.isFinite then floatText x else ['n', 'u', 'l', 'l']

end Number
end Json
end Coursework
