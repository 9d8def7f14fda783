import Coursework.Request.Schema
import Coursework.Uploads

/-!
# Requests

A request arrives as the text of a document and perhaps some files.  Every request type has the same
five context fields beside its own; a `RequestKind` says what else it reads and how the server fills
its fields.
-/

set_option autoImplicit false

namespace Coursework

open Json

/-- The context fields of a request: which course and assignment it is about, who sends it, and the
`nonce` of a local one. -/
structure Context where
  courseId : String
  assignmentId : String
  userEmail : String
  userPass : String
  nonce : String
deriving DecidableEq, Repr

namespace Context

def names : List String :=
  ["course-id", "assignment-id", "user-email", "user-pass", "root-user-nonce"]

/-- Read the context from fields; an absent one is empty, which later stages take for missing. -/
def ofFields? (f : Decode.Fields) : Option Context := do
  let courseId ← f.orElse "course-id" "" Decode.string
  let assignmentId ← f.orElse "assignment-id" "" Decode.string
  let userEmail ← f.orElse "user-email" "" Decode.string
  let userPass ← f.orElse "user-pass" "" Decode.string
  let nonce ← f.orElse "root-user-nonce" "" Decode.string
  some ⟨courseId, assignmentId, userEmail, userPass, nonce⟩

def decode : Decoder Context := fun s =>
  (Decode.record? names s).bind ofFields?

end Context

/-- A request as it arrives: the text of its document, and the files that came with it. -/
structure RawRequest where
  content : String
  files : List Upload
deriving DecidableEq, Repr

inductive FieldValue where
  | roster (entries : List RosterEntry)
  | files (set : UploadSet)
deriving DecidableEq, Repr

/-- A type of request.  The server reads one out of a text with its `Context` (`decode`), holds it
against what it requires (`schema`), and fills its fields (`hydrate`); the `name` shows in what the
JSON reader says of a text that holds none (`Wording.document`). -/
structure RequestKind (R : Type) where
  /-- What the type is called, which shows in what the JSON reader says of it
  (`Wording.document`). -/
  name : String
  schema : Schema
  decode : Decoder (R × Context)
  hydrate : R → String → FieldValue → Except Fault R

namespace RequestKind

/-- Filling a field of a request that has none, which is refused, so that a schema with fields of
its own does not go with it. -/
def hydrateNone {R : Type} (_ : R) (field : String) (_ : FieldValue) : Except Fault R :=
  .error (.internal ("request type does not accept special field '" ++ field ++ "'"))

def unexpectedField (field : String) : Fault :=
  .internal ("unexpected special field '" ++ field ++ "'")

/-- Read a request with fields `own` of its own beside the context, by way of `Decode.merged?`. -/
def decodeWith {R : Type} (own : List String) (read : Decode.Fields → Option R) :
    Decoder (R × Context) := fun s => do
  let f ← Decode.merged? own Context.names s
  let r ← read f
  let context ← Context.ofFields? f
  some (r, context)

end RequestKind
end Coursework
