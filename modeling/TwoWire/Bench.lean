import TwoWire.ByteQueue
import TwoWire.Channel
import TwoWire.Place
import TwoWire.Reaction

/-! A bench to try nodes out on. It keeps what scripted handlers and sinks work on,
and a journal of what happened to them. -/

namespace TwoWire

/-- An entry of the journal: a packet that came to a handler, what came of one of its
acts and the frames sent up to then, or a frame that came to a sink. -/
inductive Note where
  | received (handler : String) (x : Exchange) (packet : Packet)
  | acted (result : Except BusError Unit) (sent : Nat)
  | transmitted (sink : String) (frame : List UInt8) (accepted : Bool)

structure Bench where
  inbox : ByteQueue := { capacity := 64 }
  boxes : List (Channel Packet) := []
  calls : List Nat := []
  journal : List Note := []

namespace Bench

def note (entry : Note) (b : Bench) : Bench :=
  { b with journal := b.journal ++ [entry] }

def takeJournal (b : Bench) : List Note × Bench :=
  (b.journal, { b with journal := [] })

def addBox (box : Channel Packet) (b : Bench) : Nat × Bench :=
  (b.boxes.length, { b with boxes := b.boxes ++ [box] })

def addSink (b : Bench) : Nat × Bench :=
  (b.calls.length, { b with calls := b.calls ++ [0] })

def inboxPlace : Place Bench ByteQueue :=
  ⟨inbox, fun inbox b => { b with inbox }⟩

def box (id : Nat) : Place Bench (Channel Packet) :=
  Place.within ⟨boxes, fun boxes b => { b with boxes }⟩ (.entry id { capacity := 0 })

def callCount (id : Nat) : Place Bench Nat :=
  Place.within ⟨calls, fun calls b => { b with calls }⟩ (.entry id 0)

end Bench

end TwoWire
