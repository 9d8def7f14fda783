import Coursework.Text

/-!
# Decimal text and machine integers

Counts, limits and identifiers are signed 64-bit integers on the wire.  They are kept here as
`Int`, with the two bounds spelled out, so that statements about them need no modular arithmetic.
-/

set_option autoImplicit false

namespace Coursework
namespace Text

def int64Min : Int := -9223372036854775808

def int64Max : Int := 9223372036854775807

def uint64Max : Nat := 18446744073709551615

def uint32Max : Nat := 4294967295

/-- The integer nearest to `n` that a signed 64-bit field can hold, as saturating arithmetic has
it. -/
def clamp64 (n : Int) : Int :=
  max int64Min (min int64Max n)

/-- An integer in decimal, with a minus sign when negative; `int64?` reads it back where it fits. -/
def decimal (n : Int) : String :=
  match n with
  | .ofNat k => String.ofList (Nat.toDigits 10 k)
  | .negSucc k => String.ofList ('-' :: Nat.toDigits 10 (k + 1))

def digitValue? (c : Char) : Option Nat :=
  let n := c.toNat
  if 48 ≤ n ∧ n ≤ 57 then some (n - 48) else none

def naturalFrom? (value : Nat) : List Char → Option Nat
  | [] => some value
  | c :: rest =>
    match digitValue? c with
    | some d => naturalFrom? (10 * value + d) rest
    | none => none

def natural? : List Char → Option Nat
  | [] => none
  | cs => naturalFrom? 0 cs

/-- Read digits behind an optional sign, for which a plus is taken as well as a minus. -/
def integer? : List Char → Option Int
  | '-' :: rest => (natural? rest).map fun n => -(n : Int)
  | '+' :: rest => (natural? rest).map fun n => (n : Int)
  | cs => (natural? cs).map fun n => (n : Int)

/-- Read a signed 64-bit integer: `integer?` within its range. -/
def int64? (s : String) : Option Int :=
  match integer? s.toList with
  | some n => if int64Min ≤ n ∧ n ≤ int64Max then some n else none
  | none => none

/-- A number with at least `width` digits, filled up with zeros on the left; it takes more if it
needs them. -/
def padded (width n : Nat) : String :=
  let digits := Nat.toDigits 10 n
  String.ofList (List.replicate (width - digits.length) '0' ++ digits)

end Text
end Coursework
