import TwoWire.Pack.Packable
import TwoWire.Packet

/-! Packets whose payload is a MessagePack value. -/

namespace TwoWire

/-- A packet with a value as its payload, which has to fit a frame. -/
def Packet.ofValue (source destination opCode : UInt8) (value : PackValue) :
    Except BusError Packet :=
  (value.writeWithin payloadLimit).map fun payload => ⟨source, destination, opCode, payload⟩

/-- The value that the payload of a packet begins with. -/
def Packet.value {α : Type} [Packable α] (p : Packet) : Except BusError α :=
  unpacked p.payload

/-- The value that the payload of an arrival begins with. -/
def Arrival.value {α : Type} [Packable α] (a : Arrival) : Except BusError α :=
  unpacked a.payload

end TwoWire
