import TwoWire.Character

/-! The sending side of the wire. The emitter says which level to drive next and
compares it with what the line reads back; only the reading moves it on. -/

namespace TwoWire

structure Emitter where
  bytes : List UInt8
  byte : Nat := 0
  slot : Nat := 0
  /-- The level driven and not yet read back. -/
  driven : Option Bool := none
deriving DecidableEq

namespace Emitter

def isDone (e : Emitter) : Bool :=
  e.bytes.length ≤ e.byte

def next (e : Emitter) : Option Bool × Emitter :=
  match e.bytes[e.byte]? with
  | none => (none, e)
  | some value =>
    let level := Character.level value e.slot
    (some level, { e with driven := some level })

def advance (e : Emitter) : Emitter :=
  if e.slot + 1 = slotsPerCharacter then { e with byte := e.byte + 1, slot := 0 }
  else { e with slot := e.slot + 1 }

/-- Compares what the line reads with the level driven and moves on, also after a
collision. With nothing driven there is nothing to compare. -/
def readBack (sampled : Bool) (e : Emitter) : Except SignalError Unit × Emitter :=
  match e.driven with
  | none => (.ok (), e)
  | some driven =>
    (checkReadback e.byte e.slot driven sampled, { e.advance with driven := none })

end Emitter

end TwoWire
