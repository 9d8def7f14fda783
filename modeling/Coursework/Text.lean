/-!
# Text, octets and characters

Everything that arrives or leaves does so as octets, while the rules about identifiers, emails
and dates speak of characters.  This file fixes the two views of a `String` and the few character
rules the rest of the library needs:

* `utf8` and `ofUtf8?` pass between a string and its octets;
* `isBlank` is the Unicode property White_Space, and `trim` removes it from both ends;
* `lower` folds the ASCII capitals and leaves every other character alone.
-/

set_option autoImplicit false

namespace Coursework
namespace Text

/-! ## Octets -/

def utf8 (s : String) : List UInt8 :=
  s.toByteArray.data.toList

def ofUtf8? (octets : List UInt8) : Option String :=
  String.fromUTF8? ⟨octets.toArray⟩

/-- How many octets a string takes in UTF-8, which is what limits on names and paths go by. -/
def size (s : String) : Nat :=
  s.utf8ByteSize

/-! ## White space -/

/-- The Unicode property White_Space: twenty-five characters, of which `trim` frees a text at its
ends. -/
def isBlank (c : Char) : Bool :=
  let n := c.toNat
  (9 ≤ n && n ≤ 13) || n == 0x20 || n == 0x85 || n == 0xA0 || n == 0x1680
    || (0x2000 ≤ n && n ≤ 0x200A) || n == 0x2028 || n == 0x2029 || n == 0x202F
    || n == 0x205F || n == 0x3000

def trimChars (cs : List Char) : List Char :=
  ((cs.dropWhile isBlank).reverse.dropWhile isBlank).reverse

def trim (s : String) : String :=
  String.ofList (trimChars s.toList)

/-! ## Letter case -/

/-- ASCII capitals become small letters; every other character stays. -/
def lower (s : String) : String :=
  String.ofList (s.toList.map Char.toLower)

/-! ## Pieces -/

/-- Split at the two-character separator `::`, from the left and without overlap: of three colons in
a row the first two separate, and the third begins the next piece. -/
def pieces : List Char → List (List Char)
  | [] => [[]]
  | ':' :: ':' :: rest => [] :: pieces rest
  | c :: rest =>
    match pieces rest with
    | [] => [[c]]
    | p :: ps => (c :: p) :: ps

/-- Split at every element that `separates`, so that there is one piece more than such elements. -/
def splitAt {α : Type} (separates : α → Bool) : List α → List (List α)
  | [] => [[]]
  | c :: rest =>
    if separates c then [] :: splitAt separates rest
    else
      match splitAt separates rest with
      | [] => [[c]]
      | p :: ps => (c :: p) :: ps

def join (separator : String) : List String → String
  | [] => ""
  | [s] => s
  | s :: rest => s ++ separator ++ join separator rest

end Text
end Coursework
