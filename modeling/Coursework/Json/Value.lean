import Coursework.Json.Source

/-!
# JSON values

A `Value` is what a document means: numbers have their values, strings are text, and an object is a
finite map shown in the order of its keys, where the last of several members with one key counts.

`Source.toValue?` gives the value of a document.  It fails on a number too large for a double, on a
string that is no text, and on containers nested deeper than the room it is given.
-/

set_option autoImplicit false

namespace Coursework
namespace Json

/-- A JSON value.  Nothing keeps the members of an object in order; the values that
`Source.toValue?` and `Value.canonical` give have them by increasing key, each key once. -/
inductive Value where
  | null
  | bool (b : Bool)
  | number (n : Number)
  | string (s : String)
  | array (items : List Value)
  | object (members : List (String × Value))

instance : Inhabited Value := ⟨.null⟩

/-- How deep containers may be nested in a value that is kept, the outermost one counted. -/
def depthLimit : Nat := 127

namespace Value

/-- Put a member into a list of members with increasing keys, in place of one with its key. -/
def insertMember {α : Type} (key : String) (v : α) : List (String × α) → List (String × α)
  | [] => [(key, v)]
  | e :: rest =>
    if key < e.1 then (key, v) :: e :: rest
    else if key = e.1 then (key, v) :: rest
    else e :: insertMember key v rest

/-- Members by increasing key, the last of each key, by `insertMember` from left to right. -/
def sortMembers {α : Type} (members : List (String × α)) : List (String × α) :=
  members.foldl (fun sorted e => insertMember e.1 e.2 sorted) []

def ofMembers (members : List (String × Value)) : Value :=
  .object (sortMembers members)

def field? (v : Value) (key : String) : Option Value :=
  match v with
  | .object members => members.lookup key
  | _ => none

def int (n : Int) : Value := .number (.int n)

def nat (n : Nat) : Value := .number (.int n)

def float (x : Float) : Value := .number (.float x)

/-- A value that may be absent, shown as `null` then: what `Decode.optional` reads. -/
def optional {α : Type} (render : α → Value) : Option α → Value
  | none => .null
  | some a => render a

mutual

/-- The value with the members of every object in it in order (`ofMembers`), which is the form in
which it is sent. -/
def canonical : Value → Value
  | .array items => .array (canonicalItems items)
  | .object members => ofMembers (canonicalMembers members)
  | .null => .null
  | .bool b => .bool b
  | .number n => .number n
  | .string s => .string s

def canonicalItems : List Value → List Value
  | [] => []
  | v :: rest => canonical v :: canonicalItems rest

def canonicalMembers : List (String × Value) → List (String × Value)
  | [] => []
  | (k, v) :: rest => (k, canonical v) :: canonicalMembers rest

end

end Value

namespace Source

mutual

/-- The value of a document, with at most `room` containers around any part of it.  It fails on
strings that are no text and on numbers that have no double (`Numeral.toNumber?`). -/
def toValue? (room : Nat) : Source → Option Value
  | .null => some .null
  | .bool b => some (.bool b)
  | .number n => n.toNumber?.map .number
  | .string s => s.map .string
  | .array items =>
    match room with
    | 0 => none
    | room + 1 => (itemsToValues? room items).map .array
  | .object members =>
    match room with
    | 0 => none
    | room + 1 => (membersToValues? room members).map Value.ofMembers

def itemsToValues? (room : Nat) : List Source → Option (List Value)
  | [] => some []
  | s :: rest =>
    match toValue? room s with
    | none => none
    | some v => (itemsToValues? room rest).map (v :: ·)

def membersToValues? (room : Nat) :
    List (Option String × Source) → Option (List (String × Value))
  | [] => some []
  | (key, s) :: rest =>
    match key, toValue? room s with
    | some key, some v => (membersToValues? room rest).map ((key, v) :: ·)
    | _, _ => none

end

end Source

def Value.ofString? (s : String) : Option Value :=
  (Source.ofString? s).bind (Source.toValue? depthLimit)

end Json
end Coursework
