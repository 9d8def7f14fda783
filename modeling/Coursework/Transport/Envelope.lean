import Coursework.Course
import Coursework.Entropy
import Coursework.Fault

/-!
# Envelopes

Every answer travels in an `Envelope`, which says whether the request succeeded, when it began and
ended, and either what it brought or why it failed.
-/

set_option autoImplicit false

namespace Coursework

open Json Time

/-- An answer as it travels: either content, or the status, message and `locator` of a fault, with
the times between which it came about and a name that no other has. -/
structure Envelope where
  id : String
  serverVersion : String
  start : Moment
  finish : Moment
  success : Bool
  httpStatus : Nat
  message : String
  locator : String
  content : Value

namespace Envelope

def version : String := "0.1.0"

/-- A random name in the form of a version 4 UUID, made of sixteen octets. -/
def nameOf (octets : List UInt8) : String :=
  let marked := (List.range 16).zip octets |>.map fun p =>
    if p.1 = 6 then (p.2 &&& 0x0F) ||| 0x40 else if p.1 = 8 then (p.2 &&& 0x3F) ||| 0x80 else p.2
  let part (i n : Nat) : String := Text.hex ((marked.drop i).take n)
  Text.join "-" [part 0 4, part 4 2, part 6 2, part 8 2, part 10 6]

/-- The envelope of content that a route answers (`Reply.content`). -/
def ofContent (id : String) (start finish : Moment) (content : Value) : Envelope :=
  ⟨id, version, start, finish, true, 200, "", "", content⟩

/-- The envelope of a fault, with its `Fault.status`, `Fault.message` and `Fault.locator`. -/
def ofFault (id : String) (start finish : Moment) (f : Fault) : Envelope :=
  ⟨id, version, start, finish, false, f.status, f.message, f.locator.code, .null⟩

/-- The HTTP status that goes with an envelope. -/
def statusCode (e : Envelope) : Nat :=
  if 100 ≤ e.httpStatus ∧ e.httpStatus ≤ 999 then e.httpStatus else 500

def decode : Decoder Envelope := fun s => do
  let f ← Decode.record?
    ["id", "server-version", "start-timestamp", "end-timestamp", "success", "http-status",
      "message", "locator", "content"] s
  let id ← f.required "id" Decode.string
  let version ← f.required "server-version" Decode.string
  let start ← f.required "start-timestamp" Moment.decode
  let finish ← f.required "end-timestamp" Moment.decode
  let success ← f.required "success" Decode.bool
  let status ← f.required "http-status" (Decode.natUpTo 65535)
  let message ← f.required "message" Decode.string
  let locator ← f.required "locator" Decode.string
  let content ← f.orElse "content" .null (Decode.value (depthLimit - 1))
  some ⟨id, version, start, finish, success, status, message, locator, content⟩

/-- An envelope as a document, unless a time in it cannot be written. -/
def toJson? (e : Envelope) : Option Value := do
  let start ← e.start.toJson?
  let finish ← e.finish.toJson?
  some (.object [("id", .string e.id), ("server-version", .string e.serverVersion),
    ("start-timestamp", start), ("end-timestamp", finish), ("success", .bool e.success),
    ("http-status", .nat e.httpStatus), ("message", .string e.message),
    ("locator", .string e.locator), ("content", e.content)])

end Envelope
end Coursework
