import Coursework.Text.Cut

/-!
# The head of a part

A part of a form begins with a head of named fields, one on a line, and an empty line ends it.  The
field `content-disposition` says what the part is called and, of a file, what the file is called; of
several fields with that name the last one counts.

`parameter?` looks a word up in a disposition.  The first occurrence counts that begins the
disposition or stands behind white space or a semicolon, wherever that is.  Its value stands behind
an equals sign: in quotes, within which a backslash before a quote makes the quote a part of the
value, or bare, up to a semicolon or a space.
-/

set_option autoImplicit false

namespace Coursework
namespace Head

/-- A field of a head, with its name in small letters. -/
structure Field where
  name : List UInt8
  value : List UInt8
deriving DecidableEq, Repr

def fieldMax : Nat := 32

/-- Whether an octet may stand in the name of a field: a letter, a digit, or one of the fifteen
marks that are no separators. -/
def inName (b : UInt8) : Bool :=
  let n := b.toNat
  n == 33 || (35 ≤ n && n ≤ 39) || n == 42 || n == 43 || n == 45 || n == 46 || (48 ≤ n && n ≤ 57)
    || (65 ≤ n && n ≤ 90) || (94 ≤ n && n ≤ 122) || n == 124 || n == 126

/-- Whether an octet may stand in the value of a field: anything but control characters, of which
only the tabulator may. -/
def inValue (b : UInt8) : Bool :=
  b == 9 || (32 ≤ b && b != 127)

def isBlank (b : UInt8) : Bool :=
  b == 32 || b == 9

def small (b : UInt8) : UInt8 :=
  if 65 ≤ b ∧ b ≤ 90 then b + 32 else b

def trim (octets : List UInt8) : List UInt8 :=
  ((octets.dropWhile isBlank).reverse.dropWhile isBlank).reverse

def withoutReturn (line : List UInt8) : List UInt8 :=
  if line.getLast? = some 13 then line.dropLast else line

def field? (line : List UInt8) : Option Field :=
  let name := line.takeWhile inName
  match line.dropWhile inName with
  | 58 :: value =>
    if name.isEmpty || !value.all inValue then none else some ⟨name.map small, trim value⟩
  | _ => none

/-- Read the fields on lines up to the empty one. -/
def fieldsOn? : List (List UInt8) → Option (List Field)
  | [] => none
  | line :: rest =>
    let line := withoutReturn line
    if line.isEmpty then some []
    else
      match field? line, fieldsOn? rest with
      | some f, some fs => some (f :: fs)
      | _, _ => none

def ending : List UInt8 := [13, 10, 13, 10]

/-- Read the fields of a head, which is given without its `ending`.  There may not be more than
`fieldMax` of them. -/
def fields? (head : List UInt8) : Option (List Field) :=
  match fieldsOn? (Text.splitAt (· == 10) (head ++ ending)) with
  | some fs => if fs.length ≤ fieldMax then some fs else none
  | none => none

/-! ## Dispositions -/

def isSpace (b : UInt8) : Bool :=
  b == 32 || b == 9 || b == 10 || b == 12 || b == 13

def behind? (b : UInt8) (octets : List UInt8) : Option (List UInt8) :=
  match octets.dropWhile isSpace with
  | c :: rest => if c = b then some rest else none
  | [] => none

/-- Read a quoted value up to its closing quote, with the octets already read last to first. -/
def quotedFrom? (found : List UInt8) : List UInt8 → Option (List UInt8)
  | [] => none
  | 34 :: _ => some found.reverse
  | 92 :: 34 :: rest => quotedFrom? (34 :: found) rest
  | b :: rest => quotedFrom? (b :: found) rest

def value? (octets : List UInt8) : Option (List UInt8) := do
  let rest ← behind? 61 octets
  match behind? 34 rest with
  | some quoted => quotedFrom? [] quoted
  | none => some ((rest.dropWhile isSpace).takeWhile fun b => b != 59 && b != 32)

/-- The value of a parameter in a disposition, as octets, whether it is quoted or stands by
itself. -/
def parameterOctets? (word octets : List UInt8) : Option (List UInt8) :=
  if word.isEmpty then none
  else
    match _h : Text.cut? word octets with
    | none => none
    | some (before, rest) =>
      if before.getLast?.all fun b => isSpace b || b == 59 then value? rest
      else parameterOctets? word rest
termination_by octets.length
decreasing_by
  have := Text.length_of_cut? _h
  have : word.length ≠ 0 := by simp_all
  omega

def parameter? (word : String) (disposition : List UInt8) : Option String :=
  (parameterOctets? (Text.utf8 word) disposition).bind Text.ofUtf8?

/-- The disposition among the fields of a head, by which `Form` knows the name of a part and whether
it is a file. -/
def disposition? (fields : List Field) : Option (List UInt8) :=
  ((fields.filter fun f => f.name == Text.utf8 "content-disposition").getLast?).map Field.value

end Head
end Coursework
