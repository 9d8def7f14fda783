import Coursework.Json.Value

/-!
# Writing JSON

`Value.text` writes a value without any blank; `Value.pretty` writes it over several lines, with two
blanks for each level.  Members are written in the order in which the value holds them.
-/

set_option autoImplicit false

namespace Coursework
namespace Json

/-- A character within quotes: itself, or the shortest escape of a control character, a quote or a
backslash. -/
def quotedChar (c : Char) : List Char :=
  let n := c.toNat
  if c = '"' then ['\\', '"']
  else if c = '\\' then ['\\', '\\']
  else if n = 8 then ['\\', 'b']
  else if n = 12 then ['\\', 'f']
  else if n = 10 then ['\\', 'n']
  else if n = 13 then ['\\', 'r']
  else if n = 9 then ['\\', 't']
  else if n < 32 then
    let digit (d : Nat) : Char := if d < 10 then Char.ofNat (48 + d) else Char.ofNat (87 + d)
    ['\\', 'u', '0', '0', digit (n / 16), digit (n % 16)]
  else [c]

def quoted (s : String) : List Char :=
  '"' :: (s.toList.flatMap quotedChar ++ ['"'])

namespace Value

mutual

/-- A value in JSON, without blanks.  Members stand in the order in which the value has them, which
for a `Value.canonical` one is that of their keys. -/
def chars : Value → List Char
  | .null => ['n', 'u', 'l', 'l']
  | .bool true => ['t', 'r', 'u', 'e']
  | .bool false => ['f', 'a', 'l', 's', 'e']
  | .number n => n.text
  | .string s => quoted s
  | .array items => '[' :: (itemChars items ++ [']'])
  | .object members => '\x7b' :: (memberChars members ++ ['\x7d'])

def itemChars : List Value → List Char
  | [] => []
  | [v] => chars v
  | v :: rest => chars v ++ ',' :: itemChars rest

def memberChars : List (String × Value) → List Char
  | [] => []
  | [(k, v)] => quoted k ++ ':' :: chars v
  | (k, v) :: rest => quoted k ++ ':' :: (chars v ++ ',' :: memberChars rest)

end

def text (v : Value) : String :=
  String.ofList v.chars

def octets (v : Value) : List UInt8 :=
  Text.utf8 v.text

def newLine (level : Nat) : List Char :=
  '\n' :: List.replicate (2 * level) ' '

mutual

/-- A value over several lines, within a container at `level`.  Containers with nothing in them stay
on one line. -/
def prettyChars (level : Nat) : Value → List Char
  | .array [] => ['[', ']']
  | .array (v :: items) =>
    '[' :: (newLine (level + 1) ++ prettyChars (level + 1) v ++ prettyItems (level + 1) items
      ++ newLine level ++ [']'])
  | .object [] => ['\x7b', '\x7d']
  | .object ((k, v) :: members) =>
    '\x7b' :: (newLine (level + 1) ++ quoted k ++ ':' :: ' ' :: prettyChars (level + 1) v
      ++ prettyMembers (level + 1) members ++ newLine level ++ ['\x7d'])
  | .null => chars .null
  | .bool b => chars (.bool b)
  | .number n => chars (.number n)
  | .string s => chars (.string s)

def prettyItems (level : Nat) : List Value → List Char
  | [] => []
  | v :: rest => ',' :: (newLine level ++ prettyChars level v ++ prettyItems level rest)

def prettyMembers (level : Nat) : List (String × Value) → List Char
  | [] => []
  | (k, v) :: rest =>
    ',' :: (newLine level ++ quoted k ++ ':' :: ' ' :: prettyChars level v
      ++ prettyMembers level rest)

end

/-- A value over several lines, two blanks a level: the form in which files are kept for people to
look at. -/
def pretty (v : Value) : String :=
  String.ofList (prettyChars 0 v)

end Value
end Json
end Coursework
