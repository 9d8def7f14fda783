import Mathlib.Algebra.Group.Nat.Defs
import Mathlib.Tactic.Common
import Coursework.Transport.Frame

/-!
# Streams of frames

Octets arrive in chunks that know nothing of frames.  A stream is read by adding each chunk to what
is left of the buffer and taking off all frames that are there, until the reader waits for more or
gives up (`Stream.feed`, `Inlet.drain`).

How the octets are cut does not matter (`Stream.feedAll_opened`): the state after a chunk is the one
after all octets so far.  So it is enough to drain a whole stream at once, which gives the bodies of
its frames (`Inlet.drain_frames`), and the error of the first length over the maximum
(`Inlet.drain_announced`).
-/

set_option autoImplicit false

namespace Coursework
namespace Frame

/-! ## Lengths -/

theorem length_head (n : Nat) : (head n).length = headSize := by
  rw [head, List.length_map, List.length_range]

/-- Octets with the highest first have the value that they were made from. -/
theorem headValue_octets (width n : Nat) :
    headValue ((List.range width).map fun i =>
      UInt8.ofNat ((n >>> (8 * (width - 1 - i))) % 256)) = n % 256 ^ width := by
  induction width generalizing n with
  | zero => exact (Nat.mod_one n).symm
  | succ width ih =>
    have hfront : (List.range width).map
        (fun i => UInt8.ofNat ((n >>> (8 * (width + 1 - 1 - i))) % 256)) =
        (List.range width).map fun i =>
          UInt8.ofNat (((n / 256) >>> (8 * (width - 1 - i))) % 256) := by
      refine List.map_congr_left fun i hi => ?_
      have hlt := List.mem_range.1 hi
      have hshift : 8 * (width + 1 - 1 - i) = 8 + 8 * (width - 1 - i) := by omega
      rw [hshift, Nat.shiftRight_add, Nat.shiftRight_eq_div_pow n 8]
    have hlast : n >>> (8 * (width + 1 - 1 - width)) = n := by simp
    have hfold := ih (n / 256)
    rw [headValue] at hfold
    have hsplit : n % 256 ^ (width + 1) = n % 256 + 256 * (n / 256 % 256 ^ width) := by
      rw [Nat.pow_succ', Nat.mod_mul]
    rw [headValue, List.range_succ, List.map_append, List.foldl_append, hfront, hfold, hsplit,
      List.map_singleton, List.foldl_cons, List.foldl_nil, hlast, UInt8.toNat_ofNat']
    omega

theorem headValue_head {n : Nat} (h : n < 2 ^ 64) : headValue (head n) = n := by
  rw [head, headValue_octets]
  exact Nat.mod_eq_of_lt h

theorem encode_eq_ok {max : Nat} {body : List UInt8} (h : body.length ≤ max) :
    encode max body = .ok (head body.length ++ body) := by
  rw [encode, if_neg (Nat.not_lt.2 h)]

theorem encode_eq_error_iff {max : Nat} {body : List UInt8} :
    encode max body = .error .bodyTooLong ↔ max < body.length := by
  rw [encode]
  split <;> simp [*]

/-! ## What a reader takes -/

namespace FrameReader

variable {r : FrameReader} {buffer : List UInt8} {n : Nat}

theorem takeBody_of_le (h : n ≤ buffer.length) :
    r.takeBody n buffer =
      ⟨.ok (some (buffer.take n)), { r with awaited := none }, buffer.drop n⟩ := by
  rw [takeBody, if_neg (Nat.not_lt.2 h)]

theorem takeBody_of_lt (h : buffer.length < n) :
    r.takeBody n buffer = ⟨.ok none, { r with awaited := some n }, buffer⟩ := by
  rw [takeBody, if_pos h]

theorem take_of_awaited (h : r.awaited = some n) : r.take buffer = r.takeBody n buffer := by
  rw [take, h]

theorem take_of_short (h : r.awaited = none) (hshort : buffer.length < headSize) :
    r.take buffer = ⟨.ok none, r, buffer⟩ := by
  rw [take, h]
  exact if_pos hshort

theorem take_of_announced (h : r.awaited = none) (hhead : headSize ≤ buffer.length)
    (hmax : r.max < headValue (buffer.take headSize)) :
    r.take buffer = ⟨.error .announcedTooLong, r, buffer⟩ := by
  rw [take, h]
  dsimp only
  rw [if_neg (Nat.not_lt.2 hhead), if_pos hmax]

theorem take_of_head (h : r.awaited = none) (hhead : headSize ≤ buffer.length)
    (hmax : headValue (buffer.take headSize) ≤ r.max) :
    r.take buffer = r.takeBody (headValue (buffer.take headSize)) (buffer.drop headSize) := by
  rw [take, h]
  dsimp only
  rw [if_neg (Nat.not_lt.2 hhead), if_neg (Nat.not_lt.2 hmax)]

end FrameReader

/-! ## Streams -/

/-- A reader (`FrameReader`), and the octets that it has not used yet. -/
structure Inlet where
  reader : FrameReader
  buffer : List UInt8

/-- What came out of a stream: the `bodies` of the frames in their order, and as the `rest` where
the reader waits for more, or why it has given up. -/
structure Stream where
  bodies : List (List UInt8)
  rest : Except FrameError Inlet

namespace Inlet

def add (i : Inlet) (octets : List UInt8) : Inlet :=
  ⟨i.reader, i.buffer ++ octets⟩

theorem add_append (i : Inlet) (a b : List UInt8) : i.add (a ++ b) = (i.add a).add b := by
  rw [add, add, add, List.append_assoc]

/-- What the reader takes by `FrameReader.take`, and what is left. -/
def take (i : Inlet) : Except FrameError (Option (List UInt8)) × Inlet :=
  ((i.reader.take i.buffer).result,
    ⟨(i.reader.take i.buffer).reader, (i.reader.take i.buffer).buffer⟩)

def takeBody (i : Inlet) (n : Nat) : Except FrameError (Option (List UInt8)) × Inlet :=
  ((i.reader.takeBody n i.buffer).result,
    ⟨(i.reader.takeBody n i.buffer).reader, (i.reader.takeBody n i.buffer).buffer⟩)

/-- What is added behind a body does not matter when it is taken.  A reader that waits for the body
goes on where it is. -/
theorem takeBody_add (i : Inlet) (n : Nat) (octets : List UInt8) :
    (i.add octets).takeBody n =
      match (i.takeBody n).1 with
      | .ok none => ((i.takeBody n).2.add octets).take
      | result => (result, (i.takeBody n).2.add octets) := by
  by_cases hlen : n ≤ i.buffer.length
  · have hlong : n ≤ (i.buffer ++ octets).length := by rw [List.length_append]; omega
    simp only [takeBody, add, FrameReader.takeBody_of_le hlen, FrameReader.takeBody_of_le hlong,
      List.take_append_of_le_length hlen, List.drop_append_of_le_length hlen]
  · simp only [takeBody, add, take, FrameReader.takeBody_of_lt (Nat.not_le.1 hlen)]
    rw [FrameReader.take_of_awaited rfl]
    rfl

/-- What is added behind a frame does not matter when it is taken, nor when its length is refused.
A reader that waits for more goes on where it is. -/
theorem take_add (i : Inlet) (octets : List UInt8) :
    (i.add octets).take =
      match i.take.1 with
      | .ok none => (i.take.2.add octets).take
      | result => (result, i.take.2.add octets) := by
  obtain ⟨r, buffer⟩ := i
  cases hawaited : r.awaited with
  | some n =>
    have hbody := takeBody_add ⟨r, buffer⟩ n octets
    simp only [add, take, takeBody, FrameReader.take_of_awaited hawaited] at hbody ⊢
    exact hbody
  | none =>
    by_cases hhead : headSize ≤ buffer.length
    · have hlong : headSize ≤ (buffer ++ octets).length := by rw [List.length_append]; omega
      have hsame : (buffer ++ octets).take headSize = buffer.take headSize :=
        List.take_append_of_le_length hhead
      by_cases hmax : headValue (buffer.take headSize) ≤ r.max
      · have hbody :=
          takeBody_add ⟨r, buffer.drop headSize⟩ (headValue (buffer.take headSize)) octets
        simp only [add, take, takeBody, FrameReader.take_of_head hawaited hhead hmax,
          FrameReader.take_of_head hawaited hlong (hsame ▸ hmax), hsame,
          List.drop_append_of_le_length hhead] at hbody ⊢
        exact hbody
      · have hover := Nat.not_le.1 hmax
        simp only [add, take, FrameReader.take_of_announced hawaited hhead hover,
          FrameReader.take_of_announced hawaited hlong (hsame ▸ hover)]
    · simp only [add, take, FrameReader.take_of_short hawaited (Nat.not_le.1 hhead)]

/-- How much there is for the reader to do, which is less after each frame, so that `drain` ends. -/
def work (i : Inlet) : Nat :=
  2 * i.buffer.length + if i.reader.awaited.isSome then 1 else 0

theorem work_takeBody_le {i : Inlet} {n : Nat} {body : List UInt8}
    (h : (i.takeBody n).1 = .ok (some body)) : (i.takeBody n).2.work ≤ 2 * i.buffer.length := by
  by_cases hlen : n ≤ i.buffer.length
  · simp only [takeBody, FrameReader.takeBody_of_le hlen, work, List.length_drop,
      Option.isSome_none, Bool.false_eq_true, if_false]
    omega
  · simp only [takeBody, FrameReader.takeBody_of_lt (Nat.not_le.1 hlen)] at h
    cases h

theorem work_take_lt {i : Inlet} {body : List UInt8} (h : i.take.1 = .ok (some body)) :
    i.take.2.work < i.work := by
  obtain ⟨r, buffer⟩ := i
  cases hawaited : r.awaited with
  | some n =>
    have hbody := @work_takeBody_le ⟨r, buffer⟩ n body
    simp only [take, takeBody, FrameReader.take_of_awaited hawaited] at h hbody ⊢
    refine Nat.lt_of_le_of_lt (hbody h) ?_
    simp [work, hawaited]
  | none =>
    by_cases hhead : headSize ≤ buffer.length
    · by_cases hmax : headValue (buffer.take headSize) ≤ r.max
      · have hbody :=
          @work_takeBody_le ⟨r, buffer.drop headSize⟩ (headValue (buffer.take headSize)) body
        simp only [take, takeBody, FrameReader.take_of_head hawaited hhead hmax] at h hbody ⊢
        refine Nat.lt_of_le_of_lt (hbody h) ?_
        rw [headSize] at hhead
        simp only [work, hawaited, List.length_drop, headSize]
        omega
      · simp only [take, FrameReader.take_of_announced hawaited hhead (Nat.not_le.1 hmax)] at h
        cases h
    · simp only [take, FrameReader.take_of_short hawaited (Nat.not_le.1 hhead)] at h
      cases h

/-- Take off all frames that are there, until the reader waits or has given up. -/
def drain (i : Inlet) : Stream :=
  match _h : i.take.1 with
  | .ok (some body) => { i.take.2.drain with bodies := body :: i.take.2.drain.bodies }
  | .ok none => ⟨[], .ok i.take.2⟩
  | .error e => ⟨[], .error e⟩
termination_by i.work
decreasing_by exact work_take_lt _h

variable {i : Inlet}

theorem drain_of_body {body : List UInt8} (h : i.take.1 = .ok (some body)) :
    i.drain = { i.take.2.drain with bodies := body :: i.take.2.drain.bodies } := by
  rw [drain]
  split <;> simp_all

theorem drain_of_waiting (h : i.take.1 = .ok none) : i.drain = ⟨[], .ok i.take.2⟩ := by
  rw [drain]
  split <;> simp_all

theorem drain_of_error {e : FrameError} (h : i.take.1 = .error e) : i.drain = ⟨[], .error e⟩ := by
  rw [drain]
  split <;> simp_all

theorem drain_congr {i j : Inlet} (h : i.take = j.take) : i.drain = j.drain := by
  cases hresult : j.take.1 with
  | error e => rw [drain_of_error hresult, drain_of_error (h ▸ hresult)]
  | ok taken =>
    cases taken with
    | none => rw [drain_of_waiting hresult, drain_of_waiting (h ▸ hresult), h]
    | some body => rw [drain_of_body hresult, drain_of_body (h ▸ hresult), h]

end Inlet

namespace Stream

/-- Another chunk arrives.  Nothing is read any more once the reader has given up. -/
def feed (s : Stream) (chunk : List UInt8) : Stream :=
  match s.rest with
  | .error _ => s
  | .ok i => ⟨s.bodies ++ (i.add chunk).drain.bodies, (i.add chunk).drain.rest⟩

def opened (max : Nat) : Stream :=
  ⟨[], .ok ⟨.start max, []⟩⟩

def feedAll (s : Stream) (chunks : List (List UInt8)) : Stream :=
  chunks.foldl feed s

/-- What the reader finds when nothing more will arrive (`FrameReader.takeLast`). -/
def atEnd (s : Stream) : Except FrameError (Option (List UInt8)) :=
  match s.rest with
  | .error e => .error e
  | .ok i => (i.reader.takeLast i.buffer).result

end Stream

namespace Inlet

/-- **A chunk that arrives later is read as if it had been there at once.** -/
theorem feed_drain (i : Inlet) (chunk : List UInt8) :
    i.drain.feed chunk = (i.add chunk).drain := by
  induction hwork : i.work using Nat.strongRecOn generalizing i with
  | ind work ih =>
  subst hwork
  have hadd := i.take_add chunk
  cases hresult : i.take.1 with
  | error e =>
    rw [hresult] at hadd
    rw [drain_of_error hresult, drain_of_error (congrArg Prod.fst hadd), Stream.feed]
  | ok taken =>
    cases taken with
    | none =>
      rw [hresult] at hadd
      rw [drain_of_waiting hresult, drain_congr hadd]
      rfl
    | some body =>
      rw [hresult] at hadd
      rw [drain_of_body hresult, drain_of_body (congrArg Prod.fst hadd), hadd,
        ← ih _ (work_take_lt hresult) i.take.2 rfl, Stream.feed, Stream.feed]
      cases i.take.2.drain.rest <;> rfl

end Inlet

namespace Stream

theorem drain_opened (max : Nat) : Inlet.drain ⟨.start max, []⟩ = opened max :=
  Inlet.drain_of_waiting rfl

/-- **How the octets are cut does not matter**: a stream comes to what draining all octets at once
does. -/
theorem feedAll_opened (max : Nat) (chunks : List (List UInt8)) :
    (opened max).feedAll chunks = Inlet.drain ⟨.start max, chunks.flatten⟩ := by
  rw [← drain_opened]
  suffices hall : ∀ i : Inlet, i.drain.feedAll chunks = (i.add chunks.flatten).drain from hall _
  induction chunks with
  | nil =>
    intro i
    rw [List.flatten_nil, Inlet.add, List.append_nil]
    rfl
  | cons chunk chunks ih =>
    intro i
    rw [feedAll, List.foldl_cons, Inlet.feed_drain, List.flatten_cons, Inlet.add_append]
    exact ih (i.add chunk)

end Stream

/-! ## Whole streams -/

def frames (bodies : List (List UInt8)) : List UInt8 :=
  bodies.flatMap fun body => head body.length ++ body

namespace Inlet

variable {max : Nat}

theorem take_frame {body : List UInt8} (hbody : body.length ≤ max) (hmax : max < 2 ^ 64)
    (rest : List UInt8) :
    take ⟨.start max, head body.length ++ body ++ rest⟩ =
      (.ok (some body), ⟨.start max, rest⟩) := by
  have hsize := length_head body.length
  have hfront : (head body.length ++ body ++ rest).take headSize = head body.length := by
    rw [List.append_assoc, ← hsize, List.take_left]
  have hback : (head body.length ++ body ++ rest).drop headSize = body ++ rest := by
    rw [List.append_assoc, ← hsize, List.drop_left]
  have hvalue : headValue (head body.length) = body.length :=
    headValue_head (Nat.lt_of_le_of_lt hbody hmax)
  have hlong : headSize ≤ (head body.length ++ body ++ rest).length := by
    simp only [List.length_append, hsize]
    omega
  rw [take]
  dsimp only
  rw [FrameReader.take_of_head rfl hlong (by rw [hfront, hvalue]; exact hbody), hfront, hvalue,
    hback, FrameReader.takeBody_of_le (by rw [List.length_append]; omega), List.take_left,
    List.drop_left]
  rfl

theorem drain_frames {bodies : List (List UInt8)} (h : ∀ body ∈ bodies, body.length ≤ max)
    (hmax : max < 2 ^ 64) (rest : List UInt8) :
    drain ⟨.start max, frames bodies ++ rest⟩ =
      { drain ⟨.start max, rest⟩ with
        bodies := bodies ++ (drain ⟨.start max, rest⟩).bodies } := by
  induction bodies with
  | nil => rfl
  | cons body bodies ih =>
    have hbody := h body List.mem_cons_self
    have hframe := take_frame hbody hmax (frames bodies ++ rest)
    have hcons : frames (body :: bodies) ++ rest =
        head body.length ++ body ++ (frames bodies ++ rest) := by
      rw [frames, List.flatMap_cons, List.append_assoc]
      rfl
    rw [hcons, drain_of_body (congrArg Prod.fst hframe), hframe,
      ih fun b hb => h b (List.mem_cons_of_mem body hb)]
    rfl

/-- **A length over the maximum is an error**, whatever follows, and nothing is read behind it. -/
theorem drain_announced {length : List UInt8} (hlength : length.length = headSize)
    (hmax : max < headValue length) (rest : List UInt8) :
    drain ⟨.start max, length ++ rest⟩ = ⟨[], .error .announcedTooLong⟩ := by
  have hfront : (length ++ rest).take headSize = length := by
    rw [← hlength, List.take_left]
  have hlong : headSize ≤ (length ++ rest).length := by
    rw [List.length_append]
    omega
  refine drain_of_error ?_
  rw [take]
  dsimp only
  rw [FrameReader.take_of_announced rfl hlong (by rw [hfront]; exact hmax)]

end Inlet
end Frame
end Coursework
