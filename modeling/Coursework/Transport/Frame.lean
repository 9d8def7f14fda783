/-!
# Frames

On the local socket every message is a frame: the length of its body in eight octets, the highest
first, and then the body.  A `FrameReader` takes frames off the front of a buffer; once it has read
a length it waits for that body.
-/

set_option autoImplicit false

namespace Coursework
namespace Frame

/-- Why a frame cannot be read or written: a length over the maximum is announced, the body to be
sent is over it, or the stream ends within a frame. -/
inductive FrameError where
  | announcedTooLong
  | bodyTooLong
  | leftOver
deriving DecidableEq, Repr

def headSize : Nat := 8

/-- A length as it is sent: four octets, the highest first. -/
def head (n : Nat) : List UInt8 :=
  (List.range headSize).map fun i => UInt8.ofNat ((n >>> (8 * (headSize - 1 - i))) % 256)

def headValue (octets : List UInt8) : Nat :=
  octets.foldl (fun n b => 256 * n + b.toNat) 0

/-- A frame with a body, if the body is within `max`: the `head` of its length, and the body. -/
def encode (max : Nat) (body : List UInt8) : Except FrameError (List UInt8) :=
  if max < body.length then .error .bodyTooLong else .ok (head body.length ++ body)

/-- A reader of frames: the most octets that a body may have, and the length of the body that is
`awaited`, once a head was read. -/
structure FrameReader where
  max : Nat
  awaited : Option Nat
deriving DecidableEq, Repr

namespace FrameReader

def start (max : Nat) : FrameReader := ⟨max, none⟩

/-- What a reader makes of a buffer: a body, nothing yet, or what is wrong; with the reader and the
buffer that are left. -/
structure Taken where
  result : Except FrameError (Option (List UInt8))
  reader : FrameReader
  buffer : List UInt8

/-- Take the body that is waited for, if it is all there. -/
def takeBody (r : FrameReader) (n : Nat) (buffer : List UInt8) : Taken :=
  if buffer.length < n then ⟨.ok none, { r with awaited := some n }, buffer⟩
  else ⟨.ok (some (buffer.take n)), { r with awaited := none }, buffer.drop n⟩

/-- Take one frame off a buffer if it is all there.  A length over the maximum stays in the
buffer. -/
def take (r : FrameReader) (buffer : List UInt8) : Taken :=
  match r.awaited with
  | some n => r.takeBody n buffer
  | none =>
    if buffer.length < headSize then ⟨.ok none, r, buffer⟩
    else
      let n := headValue (buffer.take headSize)
      if r.max < n then ⟨.error .announcedTooLong, r, buffer⟩
      else r.takeBody n (buffer.drop headSize)

/-- Take one frame off a buffer to which nothing will be added; a rest that is no frame is an
error. -/
def takeLast (r : FrameReader) (buffer : List UInt8) : Taken :=
  let t := r.take buffer
  match t.result with
  | .ok none => if t.buffer.isEmpty then t else { t with result := .error .leftOver }
  | _ => t

end FrameReader
end Frame
end Coursework
