import Coursework.Json.Token

/-!
# JSON documents as they are written

A `Source` is a document with everything its text says: members in their order, duplicate keys,
numbers as spelled, and a mark in place of each string that is no text.  Every decoder of the
library works on it, because rules such as "a known key may not be given twice" speak of the
document and not of the value it stands for.

`Source.read` runs the lexer and, on its tokens, an assembler that keeps the containers still open
on a stack; so depth costs no recursion, and documents of any depth can be read.
-/

set_option autoImplicit false

namespace Coursework
namespace Json

/-- A JSON document as written: numbers by their digits (`Numeral`), members in their order, and a
string that is no text as `none`. -/
inductive Source where
  | null
  | bool (b : Bool)
  | number (n : Numeral)
  | string (s : Option String)
  | array (items : List Source)
  | object (members : List (Option String × Source))

namespace Source

/-- A container still open, with what it holds so far, last to first.  An object comes with the key
whose value is being read. -/
inductive Open where
  | array (items : List Source)
  | object (members : List (Option String × Source)) (key : Option String)

/-- What the assembler waits for, inside the containers that are `outer`: a value, the first item or
key or the end of its container, a further key, the colon behind a key, or what follows a value. -/
inductive Stage where
  | value (outer : List Open)
  | firstItem (outer : List Open)
  | firstKey (outer : List Open)
  | key (outer : List Open) (members : List (Option String × Source))
  | colon (outer : List Open) (members : List (Option String × Source)) (key : Option String)
  /-- What follows a value: a comma, the end of its container, or the end of the text. -/
  | after (outer : List Open) (v : Source)

namespace Stage

/-- What a token does where a value may begin: it is a whole value, or it opens a container. -/
def begin (outer : List Open) : Token → Option Stage
  | .openArray => some (firstItem outer)
  | .openObject => some (firstKey outer)
  | .null => some (after outer .null)
  | .bool b => some (after outer (.bool b))
  | .number n => some (after outer (.number n))
  | .string s => some (after outer (.string s))
  | _ => none

/-- What a token does at a `Stage`; none when it is out of place. -/
def step (stage : Stage) (token : Token) : Option Stage :=
  match stage with
  | value outer => begin outer token
  | firstItem outer =>
    match token with
    | .closeArray => some (after outer (.array []))
    | token => begin (.array [] :: outer) token
  | firstKey outer =>
    match token with
    | .closeObject => some (after outer (.object []))
    | .string s => some (colon outer [] s)
    | _ => none
  | key outer members =>
    match token with
    | .string s => some (colon outer members s)
    | _ => none
  | colon outer members name =>
    match token with
    | .colon => some (value (.object members name :: outer))
    | _ => none
  | after outer v =>
    match outer, token with
    | .array items :: outer, .comma => some (value (.array (v :: items) :: outer))
    | .array items :: outer, .closeArray => some (after outer (.array (v :: items).reverse))
    | .object members name :: outer, .comma => some (key outer ((name, v) :: members))
    | .object members name :: outer, .closeObject =>
      some (after outer (.object ((name, v) :: members).reverse))
    | _, _ => none

def steps (stage : Stage) : List Token → Option Stage
  | [] => some stage
  | token :: rest =>
    match stage.step token with
    | some stage => stage.steps rest
    | none => none

def document? : Stage → Option Source
  | after [] v => some v
  | _ => none

end Stage

/-- Read on from a state of lexer and assembler to the end of the text, one octet at a time
(`Lexer.step`, `Stage.steps`). -/
def readFrom (lexer : Lexer) (stage : Stage) : List UInt8 → Option Source
  | [] =>
    match lexer.finish with
    | none => none
    | some tokens => (stage.steps tokens).bind Stage.document?
  | b :: rest =>
    match lexer.step b with
    | none => none
    | some (tokens, lexer) =>
      match stage.steps tokens with
      | none => none
      | some stage => readFrom lexer stage rest

/-- Read a document that fills the whole text, but for blanks around it. -/
def read (octets : List UInt8) : Option Source :=
  readFrom .idle (.value []) octets

def ofString? (s : String) : Option Source :=
  read (Text.utf8 s)

end Source
end Json
end Coursework
