import TwoWire.Header

/-! Messages to send and messages received. A packet is written as one frame, its
header followed by its payload; every way of writing it agrees on those bytes. -/

namespace TwoWire

structure Packet where
  source : UInt8
  destination : UInt8
  opCode : UInt8
  payload : List UInt8 := []
deriving DecidableEq

namespace Packet

def frameSize (p : Packet) : Nat :=
  headerSize + p.payload.length

/-- The header of the packet under a payload bound, which is never taken to be
wider than the format allows. -/
def header (p : Packet) (bound : Nat) : Except ParamFault Header :=
  if p.payload.length > min bound payloadLimit then
    .error (.payloadTooLong p.payload.length (min bound payloadLimit))
  else
    .ok ⟨p.source, p.destination, p.opCode, p.payload.length.toUInt8⟩

def frame (p : Packet) : Except ParamFault (List UInt8) :=
  (p.header payloadLimit).map fun h => h.bytes ++ p.payload

/-- Writes the frame over the front of a buffer and gives its size. A payload
above the bound is reported before a buffer that is too small; neither changes
the buffer. -/
def frameInto (p : Packet) (bound : Nat) (buffer : List UInt8) :
    Except ParamFault Nat × List UInt8 :=
  match p.header bound with
  | .error fault => (.error fault, buffer)
  | .ok h =>
    if buffer.length < h.frameSize then
      (.error (.bufferTooSmall h.frameSize buffer.length), buffer)
    else
      (.ok h.frameSize, h.bytes ++ p.payload ++ buffer.drop h.frameSize)

end Packet

/-- A frame as the receiving side sees it: the header as it came and the payload
collected after it. -/
structure Arrival where
  header : Header
  payload : List UInt8
deriving DecidableEq

namespace Arrival

def packet (a : Arrival) : Packet :=
  ⟨a.header.source, a.header.destination, a.header.opCode, a.payload⟩

/-- The arrival of a packet whose payload length fits one byte. -/
def ofPacket (p : Packet) : Arrival :=
  ⟨⟨p.source, p.destination, p.opCode, p.payload.length.toUInt8⟩, p.payload⟩

/-- Whether the frame carries this message; the declared length plays no part. -/
def carries (a : Arrival) (p : Packet) : Bool :=
  a.header.source == p.source && a.header.destination == p.destination &&
    a.header.opCode == p.opCode && a.payload == p.payload

@[simp] theorem packet_ofPacket (p : Packet) : (ofPacket p).packet = p := rfl

theorem carries_iff (a : Arrival) (p : Packet) : a.carries p = true ↔ a.packet = p := by
  cases p
  simp [carries, packet, and_assoc]

end Arrival

end TwoWire
