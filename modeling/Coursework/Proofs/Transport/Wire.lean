import Coursework.Proofs.Desk.Assured
import Coursework.Proofs.Transport.Envelope
import Coursework.Proofs.Transport.Frames
import Coursework.Transport.Daemon

/-!
# What goes over the local socket

A client sends one frame with a local request, and the server answers with one frame that holds an
envelope.  Both arrive as they were sent (`wire_round_trip`): the frames whatever the chunks are in
which their octets arrive, the request because it is read back out of its document
(`LocalRequest.decodeOctets?_octets`), and the envelope likewise, once its times can be written.

The object of a request and the content of an envelope stand inside a document, so that there is one
level less for them.
-/

set_option autoImplicit false

namespace Coursework

open Json Time

namespace LocalRequest

theorem decodeOctets?_octets {r : LocalRequest}
    (hshaped : (Value.object r.request).Shaped (depthLimit - 1))
    (hwritable : (Value.object r.request).Writable) :
    decodeOctets? decode r.toJson.octets = some r := by
  have hread : Source.read r.toJson.octets = some r.toJson.source := r.toJson.ofString?_text
  have hvalue := Value.toValue?_source hshaped hwritable.numbersSurvive
  have hrequest : decodeMembers (Value.object r.request).source = some r.request := by
    rw [decodeMembers, Decode.value, hvalue]
  rw [decodeOctets?, hread, Option.bind_some, toJson, decode,
    Decode.record?_of_keys (by decide) (by rfl)]
  simp only [Option.bind_eq_bind, Option.bind_some]
  rw [Decode.required_fieldsOf (v := .string r.endpoint) rfl,
    Decode.required_fieldsOf (v := .object r.request) rfl, hrequest]
  rfl

end LocalRequest

theorem Time.Moment.InYears.exists_toJson? {t : Moment} (h : t.InYears) :
    ∃ v, t.toJson? = some v := by
  obtain ⟨text, htext⟩ := h.expressible.exists_writeRfc3339
  rw [Moment.toJson?, Moment.rfc3339?, htext]
  exact ⟨_, rfl⟩

namespace Envelope

/-- An envelope with times in UTC in the years 0 to 9999 (`InYears`) can be written. -/
theorem exists_toJson? {e : Envelope} (hstart : e.start.InYears) (hfinish : e.finish.InYears) :
    ∃ v, e.toJson? = some v := by
  obtain ⟨start, hstart⟩ := hstart.exists_toJson?
  obtain ⟨finish, hfinish⟩ := hfinish.exists_toJson?
  rw [toJson?, hstart, hfinish]
  exact ⟨_, rfl⟩

end Envelope

namespace Frame

/-- The frames of bodies that are not over the maximum are sent. -/
theorem mapM_encode {max : Nat} {bodies : List (List UInt8)}
    (h : ∀ body ∈ bodies, body.length ≤ max) :
    bodies.mapM (encode max) = .ok (bodies.map fun body => head body.length ++ body) := by
  induction bodies with
  | nil => rfl
  | cons body bodies ih =>
    rw [List.mapM_cons, encode_eq_ok (h body List.mem_cons_self),
      ih fun b hb => h b (List.mem_cons_of_mem body hb)]
    rfl

/-- **What is sent over the local socket arrives as it was sent.**

* Bodies that are not over the maximum can all be sent.  However the octets of their frames are cut
  (`Stream.feedAll`), exactly these bodies are read, in this order, and nothing is left over; and if
  a length over the maximum comes behind them, they are followed by that error and by nothing else,
  whatever octets come then.
* A body is refused by `encode` exactly if it is over the maximum.
* A request for an endpoint with an object is read as that endpoint and that object, if the object
  is not nested too deeply to stand in a request.
* An envelope with times in UTC in the years 0 to 9999 can be written and is read as it was, if its
  content is not nested too deeply to stand in an envelope. -/
theorem wire_round_trip {max : Nat} (hmax : max ≤ Text.uint64Max) :
    (∀ bodies, (∀ body ∈ bodies, body.length ≤ max) →
      ∃ sent, bodies.mapM (encode max) = .ok sent ∧
        (∀ chunks, chunks.flatten = sent.flatten →
          (Stream.opened max).feedAll chunks = ⟨bodies, .ok ⟨.start max, []⟩⟩ ∧
            ((Stream.opened max).feedAll chunks).atEnd = .ok none) ∧
        ∀ length rest chunks, length.length = headSize → max < headValue length →
          chunks.flatten = sent.flatten ++ (length ++ rest) →
          (Stream.opened max).feedAll chunks = ⟨bodies, .error .announcedTooLong⟩) ∧
    (∀ body, encode max body = .error .bodyTooLong ↔ max < body.length) ∧
    (∀ endpoint members, (Value.object members).Shaped (depthLimit - 1) →
      (Value.object members).Writable →
      ∃ body, Daemon.requestBody? endpoint (.object members) = some body ∧
        decodeOctets? LocalRequest.decode body = some ⟨endpoint, members⟩) ∧
    ∀ e : Envelope, e.start.InYears → e.finish.InYears → e.httpStatus ≤ 65535 →
      e.content.Shaped (depthLimit - 1) → e.content.Writable →
      ∃ v, e.toJson? = some v ∧ decodeOctets? Envelope.decode v.octets = some e := by
  have hsmall : max < 2 ^ 64 := Nat.lt_of_le_of_lt hmax (by decide)
  refine ⟨fun bodies hbodies => ?_, fun body => encode_eq_error_iff, ?_, ?_⟩
  · have hflatten : (bodies.map fun body => head body.length ++ body).flatten = frames bodies :=
      List.flatMap_def.symm
    refine ⟨_, mapM_encode hbodies, fun chunks hchunks => ?_, ?_⟩
    · have hdrain := Inlet.drain_frames hbodies hsmall []
      rw [List.append_nil, Stream.drain_opened, Stream.opened, List.append_nil] at hdrain
      rw [Stream.feedAll_opened, hchunks, hflatten, hdrain]
      exact ⟨rfl, rfl⟩
    · intro length rest chunks hlength hover hchunks
      have hdrain := Inlet.drain_frames hbodies hsmall (length ++ rest)
      rw [Inlet.drain_announced hlength hover, List.append_nil] at hdrain
      rw [Stream.feedAll_opened, hchunks, hflatten, hdrain]
  · intro endpoint members hshaped hwritable
    exact ⟨_, rfl, @LocalRequest.decodeOctets?_octets ⟨endpoint, members⟩ hshaped hwritable⟩
  · intro e hstart hfinish hstatus hshaped hwritable
    obtain ⟨v, hv⟩ := Envelope.exists_toJson? hstart hfinish
    exact ⟨v, hv, Envelope.decodeOctets?_octets ⟨hstatus, hshaped, hwritable.numbersSurvive⟩ hv⟩

def halfPoint : List (String × Value) :=
  [("course-id", .string "cs1"), ("points", .array [.float 0.5, .int (-1)])]

theorem writable_halfPoint : (Value.object halfPoint).Writable where
  ints n hn := by
    have hnumbers : n = -1 := by simpa [halfPoint, Value.numbers, Value.memberNumbers,
      Value.itemNumbers, Value.float, Value.int] using hn
    subst hnumbers
    decide
  doubles x hx := by
    have hnumbers : x = 0.5 := by simpa [halfPoint, Value.numbers, Value.memberNumbers,
      Value.itemNumbers, Value.float, Value.int] using hx
    subst hnumbers
    rfl

theorem shaped_halfPoint : (Value.object halfPoint).Shaped (depthLimit - 1) := by
  refine ⟨?_, trivial, ⟨trivial, trivial, trivial⟩, trivial⟩
  simp only [KeysIncrease, halfPoint, List.pairwise_cons]
  decide +kernel

/-- Two frames that arrive in three chunks, with the first cut in its head and the second empty; a
length of 2 ^ 64 - 1 behind them; a request, and an envelope that has it as its content. -/
theorem wire_round_trip_small :
    (∃ sent, [[1, 2, 3], []].mapM (encode 3) = .ok sent ∧
      (Stream.opened 3).feedAll [sent.flatten.take 5, sent.flatten.drop 5, []] =
        ⟨[[1, 2, 3], []], .ok ⟨.start 3, []⟩⟩ ∧
      (Stream.opened 3).feedAll [sent.flatten ++ List.replicate 7 255, [255, 0]] =
        ⟨[[1, 2, 3], []], .error .announcedTooLong⟩) ∧
    (∃ body, Daemon.requestBody? "users/auth" (.object halfPoint) = some body ∧
      decodeOctets? LocalRequest.decode body = some ⟨"users/auth", halfPoint⟩) ∧
    ∃ v, (Envelope.ofContent "1" ⟨0, 0⟩ ⟨1500, 0⟩ (.object halfPoint)).toJson? = some v ∧
      decodeOctets? Envelope.decode v.octets =
        some (.ofContent "1" ⟨0, 0⟩ ⟨1500, 0⟩ (.object halfPoint)) := by
  obtain ⟨hframes, -, hrequest, henvelope⟩ := @wire_round_trip 3 (by decide)
  obtain ⟨sent, hsent, hcut, hover⟩ := hframes [[1, 2, 3], []] (by decide)
  refine ⟨⟨sent, hsent, (hcut _ ?_).1, hover (List.replicate 8 255) [0] _ rfl (by decide) ?_⟩,
    hrequest _ _ shaped_halfPoint writable_halfPoint,
    henvelope _ (by decide) (by decide) (by decide) shaped_halfPoint writable_halfPoint⟩
  · simp
  · simp [List.replicate]

end Frame
end Coursework
