import TwoWire.Packet

/-! Cutting a byte stream into frames, one byte at a time. Four header bytes are
followed by as many payload bytes as the fourth one says; a length above the bound
drops the header and starts over with the next byte. -/

namespace TwoWire

/-- What the next byte is going to be. -/
inductive Phase where
  | source | destination | opCode | length | payload
deriving DecidableEq

def Phase.name : Phase → String
  | source => "WaitForSelfAddr"
  | destination => "WaitForDestAddr"
  | opCode => "WaitForOpCode"
  | length => "WaitForLen"
  | payload => "WaitForData"

/-- The frame in progress. The header keeps the fields of earlier frames until
they are overwritten, and so does the payload storage. -/
structure Assembler where
  phase : Phase := .source
  header : Header := ⟨0, 0, 0, 0⟩
  storage : Vector UInt8 payloadLimit := Vector.replicate payloadLimit 0
  cursor : Nat := 0
  bound : Nat
deriving DecidableEq

namespace Assembler

/-- An assembler for payloads up to the given bound, or up to the format's own
limit if that is smaller. -/
def withBound (bound : Nat) : Assembler :=
  { bound := min bound payloadLimit }

def reset (a : Assembler) : Assembler :=
  { a with phase := .source, cursor := 0 }

def isIdle (a : Assembler) : Bool :=
  a.phase == .source

/-- Takes one byte. The answer is the frame that this byte completes, if any, or
the fault of a length byte above the bound. -/
def feed (byte : UInt8) (a : Assembler) : Except ParamFault (Option Arrival) × Assembler :=
  match a.phase with
  | .source =>
    (.ok none, { a with header := { a.header with source := byte }, phase := .destination })
  | .destination =>
    (.ok none, { a with header := { a.header with destination := byte }, phase := .opCode })
  | .opCode =>
    (.ok none, { a with header := { a.header with opCode := byte }, phase := .length })
  | .length =>
    let a := { a with header := { a.header with length := byte } }
    if byte.toNat > a.bound then
      (.error (.payloadTooLong byte.toNat a.bound), a.reset)
    else if byte = 0 then
      (.ok (some ⟨a.header, []⟩), { a with phase := .source })
    else
      (.ok none, { a with cursor := 0, phase := .payload })
  | .payload =>
    let a := { a with storage := a.storage.setIfInBounds a.cursor byte, cursor := a.cursor + 1 }
    if a.cursor = a.header.length.toNat then
      (.ok (some ⟨a.header, a.storage.toList.take a.cursor⟩),
        { a with cursor := 0, phase := .source })
    else
      (.ok none, a)

end Assembler

end TwoWire
