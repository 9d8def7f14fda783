import Coursework.Json.Value

/-!
# Lenient access to members

These functions look at a member of an object and take an absent member, or one of another type, for
an empty one.  They are for reading instructions, where a missing word means the usual.
-/

set_option autoImplicit false

namespace Coursework
namespace Json
namespace Access

/-- The member of an object under a key, or `null`, so that what is missing and what is `null` are
read alike below. -/
def get (v : Value) (key : String) : Value :=
  (v.field? key).getD .null

def text? (v : Value) (key : String) : Option String :=
  match get v key with
  | .string s => some s
  | _ => none

def text (v : Value) (key : String) : String :=
  (text? v key).getD ""

def flag? (v : Value) (key : String) : Option Bool :=
  match get v key with
  | .bool b => some b
  | _ => none

def flag (v : Value) (key : String) : Bool :=
  (flag? v key).getD false

def items (v : Value) (key : String) : List Value :=
  match get v key with
  | .array vs => vs
  | _ => []

def int? (v : Value) (key : String) : Option Int :=
  match get v key with
  | .number (.int n) => some n
  | _ => none

def int (v : Value) (key : String) : Int :=
  (int? v key).getD 0

def nat (v : Value) (key : String) : Nat :=
  (int v key).toNat

def float? (v : Value) (key : String) : Option Float :=
  match get v key with
  | .number n => some n.toFloat
  | _ => none

def strings (vs : List Value) : List String :=
  vs.filterMap fun v => match v with
    | .string s => some s
    | _ => none

end Access
end Json
end Coursework
