import TwoWire.Character.Emitter
import TwoWire.Character.Sampler

/-! An emitter and a sampler on one wire on which a low level wins: the line is
high only while the emitter drives it high and nobody else pulls it low. -/

namespace TwoWire

structure Strand where
  emitter : Emitter
  sampler : Sampler := {}
deriving DecidableEq

inductive Strand.Report where
  | collision (cause : SignalError)
  | outcome (result : Except SignalError UInt8)

namespace Strand

/-- Drives one slot and reads it back: the level of the line and the emitter's
verdict, or nothing if all is sent. -/
def drive (pulled : Bool) (s : Strand) : Option (Bool × Except SignalError Unit × Strand) :=
  match s.emitter.next with
  | (none, _) => none
  | (some level, emitter) =>
    let line := level && !pulled
    let (verdict, emitter) := emitter.readBack line
    some (line, verdict, { s with emitter })

/-- Lets the sampler hear a level, which arms it if it is waiting and the level is
low. Gives what a completed character brought. -/
def hear (line : Bool) (s : Strand) : Option (Except SignalError UInt8) × Strand :=
  let sampler := if !s.sampler.receiving && !line then s.sampler.arm.2 else s.sampler
  if !sampler.receiving then (none, { s with sampler })
  else
    match sampler.sample line with
    | (.ok none, sampler) => (none, { s with sampler })
    | (.ok (some byte), sampler) => (some (.ok byte), { s with sampler })
    | (.error cause, sampler) => (some (.error cause), { s with sampler })

/-- Runs at most so many slots from a given one, where `pulled` says in which slots
another node pulls the line low. Gives the reports by slot, the slot reached and
what the two sides look like there. With `stop` the first collision ends the run
within its slot. -/
def run (pulled : Nat → Bool) (stop : Bool) :
    Nat → Nat → Strand → List (Nat × Report) × Nat × Strand
  | 0, slot, s => ([], slot, s)
  | slots + 1, slot, s =>
    match s.drive (pulled slot) with
    | none => ([], slot, s)
    | some (line, .error cause, s) =>
      if stop then ([(slot, .collision cause)], slot, s)
      else
        let (heard, s) := s.hear line
        let (reports, last, s) := s.run pulled stop slots (slot + 1)
        ((slot, .collision cause) :: heard.toList.map (fun r => (slot, .outcome r)) ++ reports,
          last, s)
    | some (line, .ok (), s) =>
      let (heard, s) := s.hear line
      let (reports, last, s) := s.run pulled stop slots (slot + 1)
      (heard.toList.map (fun r => (slot, .outcome r)) ++ reports, last, s)

def sendAll (bytes : List UInt8) (pulled : Nat → Bool) (stop : Bool) :
    List (Nat × Report) × Nat × Strand :=
  run pulled stop (slotsPerCharacter * bytes.length) 0 { emitter := { bytes } }

end Strand

end TwoWire
