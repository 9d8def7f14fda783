import Coursework.Text.Decimal
import Coursework.Text.Hex

/-!
# Addresses to listen on

A server listens on a host of its own machine and a port.  A host of four octets is written as one
to four numbers with points between them, each in decimal, in octal behind a zero, or in hexadecimal
behind `0x`; the last number stands for all the octets that the others leave.  A host of sixteen
octets is written as eight groups of hexadecimal digits with colons between them; two colons stand
for one run of groups that are zero, and four octets in decimal may stand for the last two groups.

A machine can listen on its loopback hosts, on the host that stands for every host it has, and on
those that address a group or everyone.  Port zero asks for any port that is free.
-/

set_option autoImplicit false

namespace Coursework

/-- A host: four octets read as one number (`quad`), the same behind the prefix that maps them to
sixteen octets (`mapped`), or one of the two hosts of sixteen octets that a machine has to
itself. -/
inductive Host where
  | quad (value : Nat)
  | mapped (value : Nat)
  | loopback6
  | any6
deriving DecidableEq, Repr

namespace Host

def firstOctet (value : Nat) : Nat :=
  value >>> 24

/-- Whether only the machine itself reaches the host. -/
def isLoopback : Host → Bool
  | quad v => firstOctet v == 127
  | loopback6 => true
  | mapped _ | any6 => false

/-- Whether the host stands for all hosts of the machine. -/
def isUnspecified : Host → Bool
  | quad v => v == 0
  | any6 => true
  | mapped _ | loopback6 => false

/-- Whether a machine can listen on the host of these four octets: its loopback hosts, all of its
hosts, a group or everyone. -/
def isLocalQuad (value : Nat) : Bool :=
  let first := firstOctet value
  first == 127 || value == 0 || (224 ≤ first && first ≤ 239) || value == 0xFFFFFFFF

def isLocal : Host → Bool
  | quad v | mapped v => isLocalQuad v
  | loopback6 | any6 => true

def quadText (value : Nat) : String :=
  Text.join "." ([24, 16, 8, 0].map fun s => Text.decimal (((value >>> s) % 256 : Nat) : Int))

def text : Host → String
  | quad v => quadText v
  | mapped v => "[::ffff:" ++ quadText v ++ "]"
  | loopback6 => "[::1]"
  | any6 => "[::]"

/-! ## Reading -/

/-- Read further digits in a base of at most sixteen, behind a value already read. -/
def digitsFrom? (base value : Nat) : List Char → Option Nat
  | [] => some value
  | c :: rest =>
    match Text.hexValue? c with
    | some d => if d < base then digitsFrom? base (base * value + d) rest else none
    | none => none

def digits? (base : Nat) : List Char → Option Nat
  | [] => none
  | cs => digitsFrom? base 0 cs

def number? : List Char → Option Nat
  | '0' :: 'x' :: cs => digits? 16 cs
  | '0' :: 'X' :: cs => digits? 16 cs
  | '0' :: cs => digitsFrom? 8 0 cs
  | cs => digits? 10 cs

/-- Put the numbers of a host together, given how many octets are to come and the value of those
already read.  The last number takes all that are to come; every other takes one. -/
def assemble? : Nat → Nat → List Nat → Option Nat
  | 0, _, _ => none
  | _, _, [] => none
  | left + 1, value, [n] =>
    let bits := 8 * (left + 1)
    if n < 1 <<< bits then some ((value <<< bits) + n) else none
  | left + 1, value, n :: rest =>
    if n < 256 then assemble? left (value * 256 + n) rest else none

/-- Read a host of four octets, by `number?` and `assemble?`. -/
def quad? (cs : List Char) : Option Host := do
  let numbers ← (Text.splitAt (· == '.') cs).mapM number?
  let value ← assemble? 4 0 numbers
  some (quad value)

def octet? : List Char → Option Nat
  | '0' :: _ :: _ => none
  | cs => (digits? 10 cs).filter (· < 256)

def group? (cs : List Char) : Option Nat :=
  if cs.length ≤ 4 then digits? 16 cs else none

def lastGroups? (cs : List Char) : Option (List Nat) :=
  match (Text.splitAt (· == '.') cs).map octet? with
  | [some a, some b, some c, some d] => some [256 * a + b, 256 * c + d]
  | _ => (group? cs).map fun g => [g]

def groups? : List (List Char) → Option (List Nat)
  | [] => some []
  | [cs] => lastGroups? cs
  | cs :: rest => do some ((← group? cs) :: (← groups? rest))

def run? (cs : List Char) : Option (List Nat) :=
  if cs.isEmpty then some [] else groups? (Text.splitAt (· == ':') cs)

/-- The eight groups of a host; four octets may not stand before two colons. -/
def allGroups? (cs : List Char) : Option (List Nat) :=
  match Text.pieces cs with
  | [whole] => (run? whole).filter fun gs => gs.length == 8
  | [front, back] => do
    let front ← if front.contains '.' then none else run? front
    let back ← run? back
    if front.length + back.length ≤ 7 then
      some (front ++ List.replicate (8 - front.length - back.length) 0 ++ back)
    else none
  | _ => none

/-- Read a host of sixteen octets, if it is one that a machine can have to itself. -/
def sixteen? (cs : List Char) : Option Host :=
  match allGroups? cs with
  | some [0, 0, 0, 0, 0, 0, 0, 0] => some any6
  | some [0, 0, 0, 0, 0, 0, 0, 1] => some loopback6
  | some [0, 0, 0, 0, 0, 0xFFFF, high, low] => some (mapped (65536 * high + low))
  | _ => none

/-- Read a host that stands by itself: a name for the loopback host, or either kind of octets. -/
def plain? (cs : List Char) : Option Host :=
  if Text.lower (String.ofList cs) = "localhost" then some (quad ((127 <<< 24) + 1))
  else (sixteen? cs).orElse fun _ => quad? cs

end Host

structure Address where
  host : Host
  port : Nat
deriving DecidableEq, Repr

namespace Address

def loopback (a : Address) : Bool :=
  a.host.isLoopback

def unspecified (a : Address) : Bool :=
  a.host.isUnspecified

/-- Split at the last colon. -/
def splitPort? (cs : List Char) : Option (List Char × List Char) :=
  let back := cs.reverse
  match back.dropWhile (· != ':') with
  | [] => none
  | _ :: host => some (host.reverse, (back.takeWhile (· != ':')).reverse)

def port? (cs : List Char) : Option Nat :=
  match Text.natural? cs with
  | some n => if n ≤ 65535 then some n else none
  | none => none

/-- Read a host with its port.  Behind a host in brackets the port has no sign; behind any other it
may have a plus sign. -/
def ofParts? (host port : List Char) : Option Address :=
  match host, port with
  | '[' :: inner, _ =>
    match inner.getLast? with
    | some ']' => do some ⟨← Host.sixteen? inner.dropLast, ← port? port⟩
    | _ => none
  | _, '+' :: digits => do some ⟨← Host.plain? host, ← port? digits⟩
  | _, _ => do some ⟨← Host.plain? host, ← port? port⟩

/-- The address that a text names, if this machine can listen there (`Host.isLocal`). -/
def parse? (s : String) : Option Address := do
  let (host, port) ← splitPort? s.toList
  let a ← ofParts? host port
  if a.host.isLocal then some a else none

/-- The host that reaches the address from this machine: for one that stands for all hosts, the
loopback host of its kind. -/
def dialHost (a : Address) : Host :=
  match a.host with
  | .any6 => .loopback6
  | .quad 0 => .quad ((127 <<< 24) + 1)
  | host => host

/-- The web address of a listener, as this machine reaches it: where `Bridge.forward` sends
requests. -/
def base (a : Address) : String :=
  "http://" ++ a.dialHost.text ++ ":" ++ Text.decimal a.port

end Address
end Coursework
