/-!
# The shortest decimal for a binary fraction

A positive double is `m · 2 ^ q`, and all reals between the two midpoints to its neighbours round
to it (the midpoints included exactly when `m` is even).  `shortest` looks for the decimal with the
fewest digits in that interval: for one digit, then two, and so on, it tries the two points of the
decimal grid around the value, and of two hits it takes the nearer one.  Seventeen digits always
suffice.
-/

set_option autoImplicit false

namespace Coursework
namespace Decimal

/-- The power `2 ^ e`, or one where the exponent is negative, so that `twoTo e / twoTo (-e)` is the
power in either case. -/
def twoTo (e : Int) : Nat := Nat.pow 2 e.toNat

def tenTo (t : Int) : Nat := Nat.pow 10 t.toNat

/-- The significand and the binary exponent of a positive finite double, from its bits. -/
def binaryParts (bits : Nat) : Nat × Int :=
  let e : Nat := bits / twoTo 52 % 2048
  let f : Nat := bits % twoTo 52
  if e = 0 then (f, -1074) else (f + twoTo 52, (e : Int) - 1075)

/-- The interval of reals that round to one double, as numerators over one denominator `scale`: its
ends `low` and `high`, and the `value` in between.  It is `closed` if its ends belong to it, which
they do for an even significand. -/
structure Interval where
  low : Nat
  value : Nat
  high : Nat
  scale : Nat
  closed : Bool

/-- The interval around `m · 2 ^ q`.  Below a power of two the gap to the next double is half as
wide. -/
def Interval.around (m : Nat) (q : Int) : Interval :=
  let down := if m = twoTo 52 ∧ q ≠ -1074 then 1 else 2
  let e := q - 2
  let up := twoTo e
  ⟨(4 * m - down) * up, 4 * m * up, (4 * m + 2) * up, twoTo (-e), m % 2 == 0⟩

/-- Whether the decimal `d · 10 ^ t` lies in the interval, by cross-multiplication. -/
def Interval.holds (i : Interval) (d : Nat) (t : Int) : Bool :=
  let point := d * tenTo t * i.scale
  let unit := tenTo (-t)
  if i.closed then decide (i.low * unit ≤ point ∧ point ≤ i.high * unit)
  else decide (i.low * unit < point ∧ point < i.high * unit)

/-- The exponent of the leading decimal digit of `num / den`, at least `-bound`. -/
def leadingExponent (num den : Nat) : Nat → Int
  | 0 => 0
  | bound + 1 =>
    if den ≤ num then ((Nat.toDigits 10 (num / den)).length : Int) - 1
    else leadingExponent (num * 10) den bound - 1

/-- The grid point of spacing `10 ^ t` that lies in the interval (`holds`), the nearer one if both
neighbours of the value do, and the even one if they are equally near. -/
def Interval.onGrid? (i : Interval) (t : Int) : Option Nat :=
  let num := i.value * tenTo (-t)
  let den := i.scale * tenTo t
  let d := num / den
  let twice := 2 * (num % den)
  match i.holds d t, i.holds (d + 1) t with
  | true, true => some (if twice < den ∨ (twice = den ∧ d % 2 = 0) then d else d + 1)
  | true, false => some d
  | false, true => some (d + 1)
  | false, false => none

/-- The first grid on which `onGrid?` finds a point, from spacing `10 ^ t` downwards. -/
def Interval.search (i : Interval) (t : Int) : Nat → Nat × Int
  | 0 => (0, 0)
  | tries + 1 =>
    match i.onGrid? t with
    | some d => (d, t)
    | none => i.search (t - 1) tries

def stripZeros : List Char → Int → List Char × Int
  | '0' :: rest, t => stripZeros rest (t + 1)
  | reversed, t => (reversed.reverse, t)

/-- The digits and the exponent of the shortest decimal that reads back as a positive finite double,
given by its bits: the first hit of `Interval.search`, from a grid that is too wide on. -/
def shortest (bits : Nat) : List Char × Int :=
  let (m, q) := binaryParts bits
  let i := Interval.around m q
  let (d, t) := i.search (leadingExponent i.value i.scale 400) 17
  stripZeros (Nat.toDigits 10 d).reverse t

end Decimal
end Coursework
