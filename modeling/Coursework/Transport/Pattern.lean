/-!
# Endpoint patterns

An endpoint is served under every path that its text takes.  A name in braces takes one segment of a
path, a name in braces behind a star takes everything that is left, a doubled brace takes a brace,
and any other character takes itself.  Neither kind of name takes the empty end of a path, though a
name that a slash follows may take an empty segment.

Several endpoints may take one path.  `choose?` then prefers the one that says more: at the first
place where two of them differ, it has a character where the other has a name.
-/

set_option autoImplicit false

namespace Coursework
namespace Pattern

/-- A piece of a pattern: a character itself, one segment up to the next slash, or everything that
is left. -/
inductive Piece where
  | literal (c : Char)
  | segment
  | remainder
deriving DecidableEq, Repr

/-- Read the pieces of an endpoint, within the name of a piece or outside. -/
def pieces : Bool → List Char → List Piece
  | _, [] => []
  | true, '\x7d' :: cs => pieces false cs
  | true, _ :: cs => pieces true cs
  | false, '\x7b' :: '\x7b' :: cs => .literal '\x7b' :: pieces false cs
  | false, '\x7d' :: '\x7d' :: cs => .literal '\x7d' :: pieces false cs
  | false, '\x7b' :: '*' :: cs => .remainder :: pieces true cs
  | false, '\x7b' :: cs => .segment :: pieces true cs
  | false, c :: cs => .literal c :: pieces false cs

def ofEndpoint (endpoint : String) : List Piece :=
  pieces false endpoint.toList

/-- Whether pieces take a path.  A segment takes one character at least. -/
def takes : List Piece → List Char → Bool
  | [], path => path.isEmpty
  | .literal c :: ps, d :: path => c == d && takes ps path
  | .literal _ :: _, [] => false
  | .segment :: ps, path => !path.isEmpty && takes ps (path.dropWhile (· != '/'))
  | .remainder :: ps, path => !path.isEmpty && ps.isEmpty

/-- Whether pieces say more than others, where the two differ first. -/
def precedes : List Piece → List Piece → Bool
  | p :: ps, q :: qs =>
    match p, q with
    | .literal c, .literal d => c == d && precedes ps qs
    | .literal _, _ => true
    | .segment, .segment => precedes ps qs
    | .segment, .remainder => true
    | _, _ => false
  | _, _ => false

def prefer (a b : String) : String :=
  if precedes (ofEndpoint b) (ofEndpoint a) then b else a

/-- The endpoint that a path belongs to: of those whose pieces take it, the one that all others
yield to (`prefer`). -/
def choose? (endpoints : List String) (path : String) : Option String :=
  match endpoints.filter fun e => takes (ofEndpoint e) path.toList with
  | [] => none
  | e :: es => some (es.foldl prefer e)

end Pattern
end Coursework
