import Coursework.Text

/-!
# Trace ids

A client may name its request, so that the two can be found together in records.  Of such a name the
first 128 characters count, and of those the ones that are visible ASCII.
-/

set_option autoImplicit false

namespace Coursework
namespace Trace

/-- The most characters of a client's name that count. -/
def lengthMax : Nat := 128

def isVisible (c : Char) : Bool :=
  33 ≤ c.toNat && c.toNat ≤ 126

def isText (s : String) : Bool :=
  s.toList.all fun c => c.toNat == 9 || (32 ≤ c.toNat && c.toNat ≤ 126)

/-- What remains of a client's name, if anything does: its visible characters, up to `lengthMax` of
them. -/
def ofClient? (s : String) : Option String :=
  match (s.toList.take lengthMax).filter isVisible with
  | [] => none
  | cs => some (String.ofList cs)

def ofHeader? (header : Option String) : Option String :=
  header.bind fun s => if isText s then ofClient? s else none

end Trace
end Coursework
