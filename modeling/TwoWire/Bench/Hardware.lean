import TwoWire.LineDriver

/-! Hardware by script: its operations fail as told and are recorded. -/

namespace TwoWire

inductive HardwareCall where
  | connect
  | drive (on : Bool)
  | write (bytes : List UInt8)
  | release
deriving DecidableEq

/-- Which operations fail, and whether what is written comes back. -/
structure HardwareScript where
  connect : Option LinkError := none
  enable : Option LinkError := none
  disable : Option LinkError := none
  write : Option LinkError := none
  release : Option LinkError := none
  loopback : Bool := false
deriving DecidableEq

def HardwareScript.failure (s : HardwareScript) : HardwareCall → Option LinkError
  | .connect => s.connect
  | .drive on => if on then s.enable else s.disable
  | .write _ => s.write
  | .release => s.release

structure Hardware where
  script : HardwareScript
  /-- Neither connecting nor releasing it makes any difference. -/
  plain : Bool := false
  buffer : ByteQueue := { capacity := 0 }
  /-- The operations so far, and whether each succeeded. -/
  calls : List (HardwareCall × Bool) := []
deriving DecidableEq

namespace Hardware

/-- Records an operation and lets it fail if the script says so. -/
def call (c : HardwareCall) (h : Hardware) : Except LinkError Unit × Hardware :=
  let result := match h.script.failure c with
    | none => .ok ()
    | some cause => .error cause
  (result, { h with calls := h.calls ++ [(c, result.toBool)] })

/-- Lets bytes come back, up to the first that does not fit. -/
def loop : List UInt8 → ByteQueue → Except LinkError Unit × ByteQueue
  | [], q => (.ok (), q)
  | byte :: rest, q =>
    match q.push byte with
    | (.ok (), q) => loop rest q
    | (.error cause, q) => (.error cause, q)

def phy : Phy Hardware where
  connect buffer h :=
    let h := { h with buffer }
    if h.plain then (.ok (), h) else h.call .connect
  drive on h := h.call (.drive on)
  write bytes h :=
    match h.call (.write bytes) with
    | (.error cause, h) => (.error cause, h)
    | (.ok (), h) =>
      if h.script.loopback && !h.plain then
        let (result, buffer) := loop bytes h.buffer
        (result, { h with buffer })
      else (.ok (), h)
  release h := if h.plain then (.ok (), h) else h.call .release
  buffer := ⟨buffer, fun buffer h => { h with buffer }⟩

end Hardware

end TwoWire
