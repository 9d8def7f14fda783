import Coursework.Text
import Coursework.Json.Number

/-!
# JSON tokens

The lexer reads one octet at a time.  Its state, a `Lexer`, is the part of a token read so far, and
`Lexer.step` says which tokens an octet completes and what is left pending.  A number ends at the
first octet that cannot belong to it, so one octet may complete a number and a bracket at once.

A string token holds the text, or nothing when the spelling is a string but no text: a half of a
surrogate pair without the other, or octets that are not UTF-8.  Whether that is an error depends on
whether anybody looks at the string.
-/

set_option autoImplicit false

namespace Coursework
namespace Json

/-- A token of JSON.  A string has its text, or nothing when its spelling stands for none
(`textOfPieces?`). -/
inductive Token where
  | openArray
  | closeArray
  | openObject
  | closeObject
  | comma
  | colon
  | null
  | bool (b : Bool)
  | number (n : Numeral)
  | string (s : Option String)
deriving DecidableEq, Repr

/-! ## The contents of a string -/

/-- A piece of a string between its quotes: an octet as it stands or as a short escape names it, or
a UTF-16 unit written as an escape. -/
inductive Piece where
  /-- An octet as it stands, or the one that a short escape names. -/
  | octet (b : UInt8)
  | unit (u : Nat)
deriving DecidableEq, Repr

def isHighHalf (u : Nat) : Bool := 0xD800 ≤ u && u ≤ 0xDBFF

def isLowHalf (u : Nat) : Bool := 0xDC00 ≤ u && u ≤ 0xDFFF

/-- The octets of the pieces, put before those found so far; the pieces come last to first.  None
when half of a surrogate pair stands alone (`isHighHalf`, `isLowHalf`). -/
def assembleReversed : List Piece → List UInt8 → Option (List UInt8)
  | [], found => some found
  | .octet b :: rest, found => assembleReversed rest (b :: found)
  | .unit u :: rest, found =>
    if isLowHalf u then
      match rest with
      | .unit v :: rest =>
        if isHighHalf v then
          let code := 0x10000 + (v - 0xD800) * 0x400 + (u - 0xDC00)
          assembleReversed rest (Text.utf8 (String.singleton (Char.ofNat code)) ++ found)
        else none
      | _ => none
    else if isHighHalf u then none
    else assembleReversed rest (Text.utf8 (String.singleton (Char.ofNat u)) ++ found)

def textOfPieces? (reversed : List Piece) : Option String :=
  (assembleReversed reversed []).bind Text.ofUtf8?

/-! ## The lexer -/

/-- How far a number has been read: `mark` is right after the letter of the exponent and `markSign`
right after its sign. -/
inductive NumberPart where
  | sign
  | zero
  | whole
  | point
  | fraction
  | mark
  | markSign
  | exponent
deriving DecidableEq, Repr

/-- A number in reading, as far as `part`; its digits are kept last to first.  It is `pointed` if a
point was read, and `below` is the sign of the exponent. -/
structure Digits where
  part : NumberPart
  negative : Bool
  whole : List Nat
  fraction : List Nat
  pointed : Bool
  below : Bool
  exponent : List Nat
deriving DecidableEq, Repr

/-- The state of the lexer between two octets: between tokens (`idle`), or within a word of which
`rest` is to come, a string, an escape, the four digits of an escaped unit, or a number. -/
inductive Lexer where
  | idle
  | word (rest : List UInt8) (token : Token)
  | text (pieces : List Piece)
  | escape (pieces : List Piece)
  | unit (pieces : List Piece) (left value : Nat)
  | number (d : Digits)
deriving DecidableEq, Repr

namespace Digits

def start (part : NumberPart) (negative : Bool) (whole : List Nat) : Digits :=
  ⟨part, negative, whole, [], false, false, []⟩

/-- Whether a number may end here, which it may not right behind its sign, its point or the mark of
its exponent. -/
def complete (d : Digits) : Bool :=
  match d.part with
  | .zero | .whole | .fraction | .exponent => true
  | .sign | .point | .mark | .markSign => false

def numeral (d : Digits) : Numeral where
  negative := d.negative
  whole := d.whole.reverse
  fraction := if d.pointed then some d.fraction.reverse else none
  exponent := if d.part = .exponent then some (d.below, d.exponent.reverse) else none

def digit? (b : UInt8) : Option Nat :=
  if 48 ≤ b ∧ b ≤ 57 then some (b.toNat - 48) else none

/-- A number goes on with one more octet; none when the octet cannot belong to it. -/
def step (d : Digits) (b : UInt8) : Option Digits :=
  match digit? b with
  | some v =>
    match d.part with
    | .sign => some { d with part := if v = 0 then .zero else .whole, whole := [v] }
    | .zero => none
    | .whole => some { d with whole := v :: d.whole }
    | .point | .fraction => some { d with part := .fraction, fraction := v :: d.fraction }
    | .mark | .markSign | .exponent =>
      some { d with part := .exponent, exponent := v :: d.exponent }
  | none =>
    if b = 46 then
      match d.part with
      | .zero | .whole => some { d with part := .point, pointed := true }
      | _ => none
    else if b = 69 ∨ b = 101 then
      match d.part with
      | .zero | .whole | .fraction => some { d with part := .mark }
      | _ => none
    else if b = 43 ∨ b = 45 then
      match d.part with
      | .mark => some { d with part := .markSign, below := b == 45 }
      | _ => none
    else none

end Digits

def hexValue? (b : UInt8) : Option Nat :=
  if 48 ≤ b ∧ b ≤ 57 then some (b.toNat - 48)
  else if 97 ≤ b ∧ b ≤ 102 then some (b.toNat - 87)
  else if 65 ≤ b ∧ b ≤ 70 then some (b.toNat - 55)
  else none

def shortEscape? (b : UInt8) : Option UInt8 :=
  if b = 34 ∨ b = 92 ∨ b = 47 then some b
  else if b = 98 then some 8
  else if b = 102 then some 12
  else if b = 110 then some 10
  else if b = 114 then some 13
  else if b = 116 then some 9
  else none

namespace Lexer

/-- What an octet does between tokens: the tokens that it is, and the state behind it. -/
def start (b : UInt8) : Option (List Token × Lexer) :=
  if b = 32 ∨ b = 10 ∨ b = 9 ∨ b = 13 then some ([], idle)
  else if b = 123 then some ([.openObject], idle)
  else if b = 125 then some ([.closeObject], idle)
  else if b = 91 then some ([.openArray], idle)
  else if b = 93 then some ([.closeArray], idle)
  else if b = 44 then some ([.comma], idle)
  else if b = 58 then some ([.colon], idle)
  else if b = 34 then some ([], text [])
  else if b = 110 then some ([], word [117, 108, 108] .null)
  else if b = 116 then some ([], word [114, 117, 101] (.bool true))
  else if b = 102 then some ([], word [97, 108, 115, 101] (.bool false))
  else if b = 45 then some ([], number (.start .sign true []))
  else
    match Digits.digit? b with
    | some v => some ([], number (.start (if v = 0 then .zero else .whole) false [v]))
    | none => none

/-- What an octet does: the tokens it completes, and the state behind it; none when it is out of
place.  An octet that ends a number is also taken for what it does after it (`start`). -/
def step (s : Lexer) (b : UInt8) : Option (List Token × Lexer) :=
  match s with
  | idle => start b
  | word rest token =>
    match rest with
    | [] => none
    | [c] => if b = c then some ([token], idle) else none
    | c :: rest => if b = c then some ([], word rest token) else none
  | text pieces =>
    if b = 34 then some ([.string (textOfPieces? pieces)], idle)
    else if b = 92 then some ([], escape pieces)
    else if b < 32 then none
    else some ([], text (.octet b :: pieces))
  | escape pieces =>
    if b = 117 then some ([], unit pieces 4 0)
    else (shortEscape? b).map fun c => ([], text (.octet c :: pieces))
  | unit pieces left value =>
    match hexValue? b with
    | none => none
    | some v =>
      if left ≤ 1 then some ([], text (.unit (16 * value + v) :: pieces))
      else some ([], unit pieces (left - 1) (16 * value + v))
  | number d =>
    match d.step b with
    | some d => some ([], number d)
    | none =>
      if d.complete then
        match start b with
        | some (tokens, s) => some (.number d.numeral :: tokens, s)
        | none => none
      else none

/-- The tokens that the end of the text completes, which is at most a number; none when it is too
early. -/
def finish : Lexer → Option (List Token)
  | idle => some []
  | number d => if d.complete then some [.number d.numeral] else none
  | _ => none

end Lexer

end Json
end Coursework
