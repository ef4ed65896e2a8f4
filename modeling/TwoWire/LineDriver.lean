import TwoWire.ByteQueue
import TwoWire.Place
import TwoWire.Reaction

/-! The driver of a half-duplex transceiver. One control line both resets the
receiver and enables the transmitter, so every transmission is bracketed by
enabling and disabling it, also where writing fails. What the hardware can do is a
`Phy`: four operations on a state of its own, each of which may fail. -/

namespace TwoWire

structure Phy (ρ : Type) where
  /-- Prepares the hardware, which is given the empty receive buffer to fill. -/
  connect : ByteQueue → ρ → Except LinkError Unit × ρ
  /-- Drives the control line; `true` enables the transmitter. -/
  drive : Bool → ρ → Except LinkError Unit × ρ
  write : List UInt8 → ρ → Except LinkError Unit × ρ
  release : ρ → Except LinkError Unit × ρ
  buffer : Place ρ ByteQueue

structure LineDriver (ρ : Type) where
  /-- Whether the transmitter is enabled, as far as the driver knows. -/
  transmitting : Bool
  hardware : ρ

namespace Phy

variable {ρ : Type}

def setTransmitting (p : Phy ρ) (on : Bool) (d : LineDriver ρ) :
    Except LinkError Unit × LineDriver ρ :=
  match p.drive on d.hardware with
  | (.ok (), hardware) => (.ok (), ⟨on, hardware⟩)
  | (.error cause, hardware) => (.error cause, { d with hardware })

/-- Prepares the hardware with an empty receive buffer and disables the transmitter.
If only the latter fails the hardware is given back. -/
def start (p : Phy ρ) (buffer : ByteQueue) (hardware : ρ) :
    Except LinkError Unit × LineDriver ρ :=
  if buffer.capacity = 0 then (.error .zeroBuffer, ⟨true, hardware⟩)
  else
    match p.connect buffer hardware with
    | (.error cause, hardware) => (.error (.connectFailed cause), ⟨true, hardware⟩)
    | (.ok (), hardware) =>
      match p.setTransmitting false ⟨true, hardware⟩ with
      | (.ok (), d) => (.ok (), d)
      | (.error cause, d) =>
        (.error (.disableFailed cause), { d with hardware := (p.release d.hardware).2 })

/-- Writes with the transmitter as it is, which has to be enabled. -/
def put (p : Phy ρ) (bytes : List UInt8) (d : LineDriver ρ) :
    Except LinkError Unit × LineDriver ρ :=
  if d.transmitting then
    let (result, hardware) := p.write bytes d.hardware
    (result, { d with hardware })
  else (.error .transmitterOff, d)

/-- Enables the transmitter, writes, and disables it whatever came of the write.
The earliest failure is reported. -/
def transmit (p : Phy ρ) (bytes : List UInt8) (d : LineDriver ρ) :
    Except LinkError Unit × LineDriver ρ :=
  if bytes.isEmpty then (.error .emptyTransmission, d)
  else
    match p.setTransmitting true d with
    | (.error cause, d) => (.error cause, d)
    | (.ok (), d) =>
      let (written, d) := p.put bytes d
      let (disabled, d) := p.setTransmitting false d
      match written with
      | .error cause => (.error cause, d)
      | .ok () => (disabled, d)

def stop (p : Phy ρ) (d : LineDriver ρ) : Except LinkError Unit × ρ :=
  match p.release (p.buffer.set (p.buffer.get d.hardware).clear d.hardware) with
  | (.ok (), hardware) => (.ok (), hardware)
  | (.error cause, hardware) => (.error (.releaseFailed cause), hardware)

def received (p : Phy ρ) : Place (LineDriver ρ) ByteQueue where
  get d := p.buffer.get d.hardware
  set q d := { d with hardware := p.buffer.set q d.hardware }

/-- A driver that lives in a larger state as the sink of a node. -/
def sink {σ : Type} (p : Phy ρ) (place : Place σ (LineDriver ρ)) : Sink σ := fun frame world =>
  let (result, world) := place.run (p.transmit frame) world
  (result.mapError BusError.link, world)

end Phy

end TwoWire
