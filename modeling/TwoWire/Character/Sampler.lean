import TwoWire.Character

/-! The receiving side of the wire. A falling edge arms the sampler; then it takes
the level of one slot after another and, with the last one, gives the byte or the
checks that failed. -/

namespace TwoWire

/-- Characters received, good and bad, and the checks that failed. -/
structure Tally where
  good : UInt64 := 0
  bad : UInt64 := 0
  start : UInt64 := 0
  parity : UInt64 := 0
  stop : UInt64 := 0
  gap : UInt64 := 0
deriving DecidableEq

namespace Tally

def countGood (t : Tally) : Tally :=
  { t with good := t.good + 1 }

def countBad (f : CharacterFaults) (t : Tally) : Tally where
  good := t.good
  bad := t.bad + 1
  start := t.start + f.start.toUInt64
  parity := t.parity + f.parity.toUInt64
  stop := t.stop + f.stop.toUInt64
  gap := t.gap + f.gap.toUInt64

end Tally

structure Sampler where
  receiving : Bool := false
  slot : Nat := 0
  data : UInt8 := 0
  filled : Nat := 0
  faults : CharacterFaults := {}
  tally : Tally := {}
deriving DecidableEq

namespace Sampler

def reset (s : Sampler) : Sampler :=
  { tally := s.tally }

def arm (s : Sampler) : Except SignalError Unit × Sampler :=
  if s.receiving then (.error .busy, s) else (.ok (), { s with receiving := true })

/-- What the level of the current slot tells about the character. -/
def observe (level : Bool) (s : Sampler) : Sampler :=
  if s.slot % 2 = 1 then { s with faults.gap := s.faults.gap || !level }
  else if s.slot = 0 then { s with faults.start := s.faults.start || level }
  else if s.slot = paritySlot then
    { s with faults.parity := s.faults.parity || level != Character.parityBit s.data }
  else if s.slot = stopSlot then { s with faults.stop := s.faults.stop || !level }
  else
    { s with
      data := if level then s.data ||| (1 <<< s.filled.toUInt8) else s.data
      filled := s.filled + 1 }

/-- Takes the level of the current slot. There is an answer with the last slot of a
character. -/
def sample (level : Bool) (s : Sampler) : Except SignalError (Option UInt8) × Sampler :=
  if !s.receiving then (.error .idle, s)
  else
    let s := { s.observe level with slot := s.slot + 1 }
    if s.slot < slotsPerCharacter then (.ok none, s)
    else if s.faults.isClean then
      (.ok (some s.data), { s.reset with tally := s.tally.countGood })
    else
      (.error (.badCharacter s.data s.faults),
        { s.reset with tally := s.tally.countBad s.faults })

end Sampler

end TwoWire
