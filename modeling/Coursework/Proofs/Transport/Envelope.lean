import Coursework.Proofs.Json.Records
import Coursework.Proofs.Time.Rfc3339
import Coursework.Transport.Envelope

/-!
# Envelopes that are read back

An envelope arrives as it was sent (`Envelope.decodeOctets?_octets`), if its times can be written
and the rest of it fits the wire: it is `Portable`.  Of the envelopes that the server makes, only
the content can keep one from being so.
-/

set_option autoImplicit false

namespace Coursework

open Json Time

/-- A moment is read back out of the text that `writeRfc3339` made of it. -/
theorem Time.Moment.decode_of_write {t : Moment} {text : String} (h : t.writeRfc3339 = .ok text) :
    Moment.decode (Value.string text).source = some t :=
  Moment.ofRfc3339?_of_write h

theorem Time.Moment.decode_of_toJson? {t : Moment} {v : Value} (h : t.toJson? = some v) :
    Moment.decode v.source = some t := by
  obtain ⟨s, hs, rfl⟩ := Option.map_eq_some_iff.1 h
  rw [rfc3339?] at hs
  cases hwrite : t.writeRfc3339 with
  | error part =>
    rw [hwrite] at hs
    cases hs
  | ok text =>
    rw [hwrite] at hs
    cases hs
    exact decode_of_write hwrite

theorem Fault.status_le (f : Fault) : f.status ≤ 65535 := by
  cases f <;> exact Nat.le_of_ble_eq_true rfl

namespace Envelope

/-- An envelope fits the wire: its status has sixteen bits, and its content is not nested too deeply
and holds no number that is read as another one. -/
structure Portable (e : Envelope) : Prop where
  status : e.httpStatus ≤ 65535
  shaped : e.content.Shaped (depthLimit - 1)
  numbers : e.content.NumbersSurvive

theorem portable_ofFault (id : String) (start finish : Moment) (f : Fault) :
    (ofFault id start finish f).Portable :=
  ⟨f.status_le, trivial, trivial⟩

/-- Whether a refusal can be written depends on its times alone, and not on what it says. -/
theorem isSome_toJson?_ofFault (id : String) (t : Moment) (f : Fault) :
    (ofFault id t t f).toJson?.isSome = t.toJson?.isSome := by
  rw [toJson?, ofFault]
  cases t.toJson? <;> rfl

/-- The members of the document that `toJson?` makes of an envelope with these times. -/
def members (e : Envelope) (start finish : Value) : List (String × Value) :=
  [("id", .string e.id), ("server-version", .string e.serverVersion), ("start-timestamp", start),
    ("end-timestamp", finish), ("success", .bool e.success), ("http-status", .nat e.httpStatus),
    ("message", .string e.message), ("locator", .string e.locator), ("content", e.content)]

/-- **An envelope arrives as it was sent.** -/
theorem decodeOctets?_octets {e : Envelope} (he : e.Portable) {v : Value} (h : e.toJson? = some v) :
    decodeOctets? decode v.octets = some e := by
  obtain ⟨start, hstart, h⟩ := Option.bind_eq_some_iff.1 h
  obtain ⟨finish, hfinish, h⟩ := Option.bind_eq_some_iff.1 h
  have hv : v = .object (e.members start finish) := (Option.some.inj h).symm
  have hread : Source.read v.octets = some v.source := v.ofString?_text
  have hstatus := Decode.natUpTo_source he.status (by decide)
  have hcontent : Decode.value (depthLimit - 1) e.content.source = some e.content :=
    Value.toValue?_source he.shaped he.numbers
  rw [decodeOctets?, hread, Option.bind_some, hv, decode,
    Decode.record?_of_keys (by decide) (by rfl)]
  simp only [Option.bind_eq_bind, Option.bind_some]
  rw [Decode.required_fieldsOf (v := .string e.id) rfl,
    Decode.required_fieldsOf (v := .string e.serverVersion) rfl,
    Decode.required_fieldsOf (v := start) rfl, Decode.required_fieldsOf (v := finish) rfl,
    Decode.required_fieldsOf (v := .bool e.success) rfl,
    Decode.required_fieldsOf (v := .nat e.httpStatus) rfl,
    Decode.required_fieldsOf (v := .string e.message) rfl,
    Decode.required_fieldsOf (v := .string e.locator) rfl,
    Decode.orElse_fieldsOf (v := e.content) rfl,
    Moment.decode_of_toJson? hstart, Moment.decode_of_toJson? hfinish, hstatus, hcontent]
  rfl

end Envelope
end Coursework
