import TwoWire.Packet

/-! Frames that wait to be written. Header and payload stay apart, so that many
frames can be handed to a stream as a list of slices without joining them. -/

namespace TwoWire

structure Outgoing where
  header : Header
  payload : List UInt8 := []
deriving DecidableEq

namespace Outgoing

def bytes (o : Outgoing) : List UInt8 :=
  o.header.bytes ++ o.payload

def size (o : Outgoing) : Nat :=
  headerSize + o.payload.length

def ofPacket (p : Packet) (bound : Nat) : Except ParamFault Outgoing :=
  (p.header bound).map fun h => ⟨h, p.payload⟩

/-- A frame that is already encoded. Its header is looked for first, then the
declared length is checked and last the size of the whole. -/
def ofEncoded (frame : List UInt8) : Except ParamFault Outgoing :=
  match Header.ofBytes? frame with
  | none => .error (.headerMissing frame.length)
  | some h =>
    match h.checkLength payloadLimit with
    | .error fault => .error fault
    | .ok () =>
      if frame.length = h.frameSize then .ok ⟨h, frame.drop headerSize⟩
      else .error (.sizeMismatch frame.length h.frameSize)

def totalSize (frames : List Outgoing) : Nat :=
  (frames.map size).foldr (· + ·) 0

/-- What is left of some frames after their first `skip` bytes, in slices that each
hold the rest of one header or of one payload. -/
def slicesFrom (skip : Nat) : List Outgoing → List (List UInt8)
  | [] => []
  | o :: rest =>
    (if skip < headerSize then [o.header.bytes.drop skip] else []) ++
      (if !o.payload.isEmpty && skip < o.size then [o.payload.drop (skip - headerSize)] else []) ++
      slicesFrom (skip - o.size) rest

@[simp] theorem length_bytes (o : Outgoing) : o.bytes.length = o.size := by
  simp [bytes, size]

end Outgoing

end TwoWire
