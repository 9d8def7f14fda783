import Coursework.Request.Context
import Coursework.Service.Wording
import Coursework.Text.Lossy
import Coursework.Transport.Head

/-!
# Multipart forms

A request arrives as a form: parts that follow lines with two dashes and a boundary, and behind the
last one the boundary with two dashes more.  The last part that is named `content` and is no file
holds the document, every part with a file name is an upload, and other parts do not matter.

`Form.octets` writes a form, as clients do: names stand in quotes as they are.  `Form.parts?` reads
what arrived.  It goes by the octets alone, so that whatever looks like a boundary is one, wherever
it was meant to stand, and what is behind the closing boundary is not looked at.
-/

set_option autoImplicit false

namespace Coursework

/-- A part of a form.  It is an upload if it has a `filename`, and else a field. -/
structure Part where
  name : Option String
  filename : Option String
  octets : List UInt8
deriving DecidableEq, Repr

/-- A form as it is sent: parts with a `boundary` between them, the last of which may be missing its
end (`closed`). -/
structure Form where
  boundary : String
  parts : List Part
  closed : Bool
deriving DecidableEq, Repr

/-- The body of a request: what arrived of a form with its boundary, or anything else. -/
inductive Body where
  | form (boundary : String) (octets : List UInt8)
  | other
deriving DecidableEq, Repr

namespace Form

def contentName : String := "content"

/-! ## Writing -/

/-- A parameter of a disposition, if it has a value, which is quoted as it is. -/
def parameterText (word : String) : Option String → String
  | some value => "; " ++ word ++ "=\"" ++ value ++ "\""
  | none => ""

def partHead (p : Part) : String :=
  "Content-Disposition: form-data" ++ parameterText "name" p.name
    ++ parameterText "filename" p.filename
    ++ (if p.filename.isSome then "\r\nContent-Type: application/octet-stream" else "")
    ++ "\r\n\r\n"

def partOctets (boundary : String) (p : Part) : List UInt8 :=
  Text.utf8 ("--" ++ boundary ++ "\r\n" ++ partHead p) ++ p.octets ++ Text.utf8 "\r\n"

/-- A form as it is sent. -/
def octets (f : Form) : List UInt8 :=
  f.parts.flatMap (partOctets f.boundary)
    ++ (if f.closed then Text.utf8 ("--" ++ f.boundary ++ "--\r\n") else [])

def body (f : Form) : Body :=
  .form f.boundary f.octets

def ofContent (boundary content : String) : Form :=
  ⟨boundary, [⟨some contentName, none, Text.utf8 content⟩], true⟩

/-! ## Reading -/

def dashes : List UInt8 := [45, 45]

def delimiter (boundary : String) : List UInt8 :=
  13 :: 10 :: (dashes ++ Text.utf8 boundary)

/-- Read the part behind a boundary, and give what stands behind the boundary that ends it. -/
def nextPart? (delimiter octets : List UInt8) : Option (Part × List UInt8) :=
  match octets.dropWhile Head.isBlank with
  | 13 :: 10 :: rest =>
    match Text.cut? Head.ending rest with
    | none => none
    | some (head, data) =>
      match Head.fields? head, Text.cut? delimiter data with
      | some fields, some (content, rest) =>
        let value (word : String) := (Head.disposition? fields).bind (Head.parameter? word)
        some (⟨value "name", value "filename", content⟩, rest)
      | _, _ => none
  | _ => none

theorem length_of_nextPart? {delimiter octets rest : List UInt8} {p : Part}
    (h : nextPart? delimiter octets = some (p, rest)) : rest.length < octets.length := by
  have hle := (List.dropWhile_suffix (l := octets) Head.isBlank).length_le
  simp only [nextPart?] at h
  split at h
  · rename_i line heq
    rw [heq] at hle
    split at h
    · cases h
    · rename_i head data hcut
      have hdata := Text.length_of_cut? hcut
      split at h
      · rename_i fields content tail _ hpart
        have htail := Text.length_of_cut? hpart
        simp only [Option.some.injEq, Prod.mk.injEq] at h
        simp only [List.length_cons] at hle
        rw [← h.2]
        omega
      · cases h
  · cases h

/-- Read the parts behind a boundary, up to the one that marks the end. -/
def partsFrom? (delimiter octets : List UInt8) : Option (List Part) :=
  if dashes.isPrefixOf octets then some []
  else
    match _h : nextPart? delimiter octets with
    | none => none
    | some (p, rest) => (partsFrom? delimiter rest).map (p :: ·)
termination_by octets.length
decreasing_by exact length_of_nextPart? _h

/-- Read the parts of a form.  What is before the first boundary does not matter. -/
def parts? (boundary : String) (octets : List UInt8) : Option (List Part) :=
  match Text.cut? (dashes ++ Text.utf8 boundary) octets with
  | none => none
  | some (_, rest) => partsFrom? (delimiter boundary) rest

/-- The document among the parts of a form: the last part without a filename that has the name for
it, in whatever octets can be read of it (`Text.lossy`). -/
def content? (parts : List Part) : Option String :=
  ((parts.filter fun p => p.filename.isNone && p.name == some contentName).getLast?).map
    fun p => Text.lossy p.octets

/-- The uploads among the parts of a form, which are those with a filename. -/
def uploads (parts : List Part) : List Upload :=
  parts.filterMap fun p => p.filename.map fun name => ⟨name, p.octets⟩

/-- Read the request out of a body that may have `limit` octets.  A form that is longer or damaged
is refused with what `Wording.form` says of it. -/
def read (w : Wording) (limit : Nat) : Body → Except Fault RawRequest
  | .other => .error .missingContent
  | .form boundary octets =>
    if limit < octets.length then .error (.malformedRequest (w.form limit boundary octets))
    else
      match parts? boundary octets with
      | none => .error (.malformedRequest (w.form limit boundary octets))
      | some parts =>
        match content? parts with
        | none => .error .missingContent
        | some content => .ok ⟨content, uploads parts⟩

end Form
end Coursework
