import Coursework.Text.Hex

/-!
# Paths of addresses

The path of a web address ends at a question mark or a number sign; its dot segments are resolved,
and what may not stand in a path is written as octets in hexadecimal.
-/

set_option autoImplicit false

namespace Coursework
namespace Url

def isPlain (c : Char) : Bool :=
  let n := c.toNat
  32 < n && n < 127 && c != '"' && c != '<' && c != '>' && c != Char.ofNat 96 && c != '\x7b'
    && c != '\x7d' && c != '#' && c != '?'

/-- A character as it is written in a path: itself, or by its octets in hexadecimal. -/
def escapeChar (c : Char) : List Char :=
  if isPlain c then [c]
  else
    (Text.utf8 (String.singleton c)).flatMap fun b =>
      ['%', (Text.hexDigit (b.toNat / 16)).toUpper, (Text.hexDigit (b.toNat % 16)).toUpper]

def plainDots (s : List Char) : List Char :=
  match s with
  | '%' :: '2' :: 'e' :: rest => '.' :: plainDots rest
  | '%' :: '2' :: 'E' :: rest => '.' :: plainDots rest
  | c :: rest => c :: plainDots rest
  | [] => []

/-- Whether a segment stands for the place itself, also with its point spelled out. -/
def isHere (s : List Char) : Bool :=
  plainDots s == ['.']

/-- Whether a segment stands for the place above. -/
def isUp (s : List Char) : Bool :=
  plainDots s == ['.', '.']

/-- Resolve dot segments behind segments already resolved, last to first.  There is nothing above
the first. -/
def resolve (done : List (List Char)) : List (List Char) → List (List Char)
  | [] => done.reverse
  | s :: rest =>
    if isUp s then
      let done := done.drop 1
      if rest.isEmpty then ([] :: done).reverse else resolve done rest
    else if isHere s then
      if rest.isEmpty then ([] :: done).reverse else resolve done rest
    else resolve (s :: done) rest

def endsPath (c : Char) : Bool :=
  c == '?' || c == '#'

/-- The path that is asked for, of the part of an address behind its host: up to a query or a
fragment, with dot segments resolved and unusual characters escaped. -/
def path (tail : String) : String :=
  let kept := tail.toList.filter fun c => c != '\t' && c != '\n' && c != '\r'
  let trimmed := (kept.reverse.dropWhile fun c => c.toNat ≤ 32).reverse
  let cut := trimmed.takeWhile fun c => !endsPath c
  let parts := resolve [] ((Text.splitAt (fun c => c == '/' || c == '\\') cut).drop 1)
  String.ofList (parts.flatMap fun s => '/' :: s.flatMap escapeChar)

end Url
end Coursework
