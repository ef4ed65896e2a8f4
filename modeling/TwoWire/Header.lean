import TwoWire.Error

/-! The header in front of every payload. Its last byte is the only thing on the
line that says where a frame ends. -/

namespace TwoWire

structure Header where
  source : UInt8
  destination : UInt8
  opCode : UInt8
  length : UInt8
deriving DecidableEq

namespace Header

def bytes (h : Header) : List UInt8 :=
  [h.source, h.destination, h.opCode, h.length]

/-- The header at the front of some bytes, if there are enough of them. -/
def ofBytes? : List UInt8 → Option Header
  | source :: destination :: opCode :: length :: _ => some ⟨source, destination, opCode, length⟩
  | _ => none

def frameSize (h : Header) : Nat :=
  headerSize + h.length.toNat

def checkLength (h : Header) (bound : Nat) : Except ParamFault Unit :=
  if h.length.toNat > bound then .error (.payloadTooLong h.length.toNat bound) else .ok ()

/-- The buffer with the header written over its first bytes; no answer if it is
shorter than a header. -/
def overwrite? (h : Header) (buffer : List UInt8) : Option (List UInt8) :=
  if buffer.length < headerSize then none else some (h.bytes ++ buffer.drop headerSize)

@[simp] theorem length_bytes (h : Header) : h.bytes.length = headerSize := rfl

@[simp] theorem ofBytes?_bytes_append (h : Header) (rest : List UInt8) :
    ofBytes? (h.bytes ++ rest) = some h := rfl

end Header

end TwoWire
