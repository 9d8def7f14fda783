import Coursework.Json.Value

/-!
# Reading records out of JSON documents

A decoder takes a document to a value of some type, or refuses it.  Two forms of record occur.

* A **plain record** is an object, or an array of its fields in the order of their declaration.  A
  known key may be given once; unknown keys are skipped, whatever they hold.
* A **merged record** is always an object, whose keys serve several records at once.  The keys that
  do not belong to its own fields are kept until it is known who wants them, so their values must be
  proper values even when nobody does.
-/

set_option autoImplicit false

namespace Coursework
namespace Json

/-- A decoder: the value of type `α` that a `Source` stands for, or none if it is not of that
form. -/
abbrev Decoder (α : Type) := Source → Option α

namespace Decode

/-! ## Single values -/

def string : Decoder String
  | .string s => s
  | _ => none

def bool : Decoder Bool
  | .bool b => some b
  | _ => none

/-- A whole number between two bounds.  It has to be spelled as one (`Numeral.toInt?`), so that
`1.0` and `-0` are none. -/
def intBetween (low high : Int) : Decoder Int
  | .number n =>
    match n.toInt? with
    | some k => if low ≤ k ∧ k ≤ high then some k else none
    | none => none
  | _ => none

def int64 : Decoder Int :=
  intBetween Text.int64Min Text.int64Max

def natUpTo (high : Nat) : Decoder Nat := fun s =>
  (intBetween 0 high s).map Int.toNat

/-- A double, for which a whole number is taken too. -/
def float : Decoder Float
  | .number n => n.toNumber?.map Number.toFloat
  | _ => none

/-- A value that may be absent, for which `null` stands then. -/
def optional {α : Type} (d : Decoder α) : Decoder (Option α)
  | .null => some none
  | s => (d s).map some

/-- A value of any shape, in a place with `room` for so many containers one in the other
(`Source.toValue?`). -/
def value (room : Nat) : Decoder Value :=
  Source.toValue? room

/-- A name out of a fixed list: a string, or an object with the name as its only key over `null`. -/
def named {α : Type} (ofName? : String → Option α) : Decoder α
  | .string (some s) => ofName? s
  | .object [(some s, .null)] => ofName? s
  | _ => none

/-- The items of a list by one decoder, in their order; if one is refused, so are all. -/
def all {α : Type} (d : Decoder α) : List Source → Option (List α)
  | [] => some []
  | s :: rest =>
    match d s with
    | none => none
    | some a => (all d rest).map (a :: ·)

def list {α : Type} (d : Decoder α) : Decoder (List α)
  | .array items => all d items
  | _ => none

/-- The members of an object by one decoder, in their order.  Their keys have to be texts. -/
def members {α : Type} (d : Decoder α) :
    List (Option String × Source) → Option (List (String × α))
  | [] => some []
  | (key, s) :: rest =>
    match key, d s with
    | some key, some a => (members d rest).map ((key, a) :: ·)
    | _, _ => none

/-- An object as a finite map in the order of its keys; the last of several members with one key
counts (`Value.sortMembers`). -/
def map {α : Type} (d : Decoder α) : Decoder (List (String × α))
  | .object ms => (members d ms).map Value.sortMembers
  | _ => none

/-! ## Records -/

/-- The documents given for the fields of a record, by name and in the order in which they were
given. -/
abbrev Fields := List (String × Source)

/-- The members of an object as `Fields`; none when a key is no text. -/
def textKeys : List (Option String × Source) → Option Fields
  | [] => some []
  | (key, s) :: rest =>
    match key with
    | none => none
    | some key => (textKeys rest).map ((key, s) :: ·)

/-- Whether `fields` gives each of `names` at most once.  What it gives of other names is not looked
at. -/
def eachOnce (names : List String) (fields : Fields) : Bool :=
  names.all fun name => (fields.filter fun f => f.1 == name).length ≤ 1

/-- The fields of a plain record with these field names.  From an array they take their names in the
order of `names`; an object may not give one of them twice (`eachOnce`). -/
def record? (names : List String) : Source → Option Fields
  | .object ms =>
    match textKeys ms with
    | none => none
    | some fields => if eachOnce names fields then some fields else none
  | .array items => if items.length ≤ names.length then some (names.zip items) else none
  | _ => none

/-- The fields of a merged record, whose own field names are `own` and whose other part has the
field names `other`.  What does not belong to `own` is kept for the other part, and has to have a
value (`Source.toValue?`) even if that does not ask for it. -/
def merged? (own other : List String) : Source → Option Fields
  | .object ms =>
    match textKeys ms with
    | none => none
    | some fields =>
      let kept := fields.filter fun f => !own.contains f.1
      if eachOnce (own ++ other) fields
          && kept.all (fun f => (f.2.toValue? (depthLimit - 1)).isSome) then some fields
      else none
  | _ => none

def Fields.required {α : Type} (fields : Fields) (name : String) (d : Decoder α) : Option α :=
  (fields.lookup name).bind d

/-- A field whose value is `absent` when it is not there.  If it is there, it is read like one that
has to be. -/
def Fields.orElse {α : Type} (fields : Fields) (name : String) (absent : α) (d : Decoder α) :
    Option α :=
  match fields.lookup name with
  | none => some absent
  | some s => d s

end Decode

/-- Decode a text that holds one document and nothing else but blanks. -/
def decodeText? {α : Type} (d : Decoder α) (s : String) : Option α :=
  (Source.ofString? s).bind d

def decodeOctets? {α : Type} (d : Decoder α) (octets : List UInt8) : Option α :=
  (Source.read octets).bind d

end Json
end Coursework
