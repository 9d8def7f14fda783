import Coursework.Text.Decimal

/-!
# What the libraries say

Where a text cannot be read or a request cannot be passed on, the answer shows what the library in
charge says about it: which value it met, in which line and column, or what became of a connection.
The server hands these texts on and looks at none of them.  So they are a parameter of everything
else, a `Wording`, and whatever is said of a server holds in any wording.

What a reader says depends on all of the text that it was given.  Two texts that are refused for the
same reason are in general not answered with the same message.
-/

set_option autoImplicit false

namespace Coursework

/-- The texts that a server takes from its libraries, by what the library was given.  The JSON
reader speaks of octets that hold no `document` of the type with a name; the form reader of a body
of which it may read so many octets, with a boundary (`form`); and the HTTP client of a request to
an address that did not get there (`unsent`), and of an answer from one that holds no envelope
(`unreadable`). -/
structure Wording where
  document : String → List UInt8 → String
  form : Nat → String → List UInt8 → String
  unsent : String → String
  unreadable : String → String

namespace Wording

/-- A `Wording` in which nothing is said of the texts themselves. -/
def plain : Wording where
  document type _ := "not a document of type " ++ type
  form _ _ _ := "the form cannot be read"
  unsent url := "error sending request for url (" ++ url ++ ")"
  unreadable _ := "error decoding response body"

/-- The JSON reader's words for a request whose course is `null`, with the column in which it
stopped.  This is the last one, since a context is made of what was read when all members have
been. -/
def lastColumn : Wording :=
  { plain with document := fun _ octets =>
      "invalid type: null, expected a string at line 1 column " ++ Text.decimal octets.length }

end Wording

end Coursework
