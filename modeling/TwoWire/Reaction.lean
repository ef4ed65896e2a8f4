import TwoWire.Packet

/-! Sinks, handlers, and what a handler does with one packet. A reaction may look
at and change the surrounding state, and it may send, but only through the node it
runs for: so every frame it sends is checked, counted and handed to that node's
sink. -/

namespace TwoWire

/-- Takes one whole frame, changes the surrounding state, may fail. -/
abbrev Sink (σ : Type) := List UInt8 → σ → Except BusError Unit × σ

/-- Checks and encodes a packet and hands the frame to the sink in one piece. A
payload above the bound is reported before a missing sink, and that before a
failure of the sink itself. -/
def transmit {σ : Type} (sink : Option (Sink σ)) (bound : Nat) (packet : Packet) (world : σ) :
    Except BusError Unit × σ :=
  match packet.frameInto bound (List.replicate frameLimit 0) with
  | (.error fault, _) => (.error (.badParam fault), world)
  | (.ok size, buffer) =>
    match sink with
    | none => (.error .noSink, world)
    | some sink =>
      match sink (buffer.take size) world with
      | (.ok (), world) => (.ok (), world)
      | (.error cause, world) => (.error (.ofCallback cause), world)

/-- Who takes part: the receiving node and the source of the packet. -/
structure Exchange where
  self : UInt8
  peer : UInt8
deriving DecidableEq

/-- The steps of a reaction in state `σ` that ends with an `α`. -/
inductive Reaction (σ : Type) (α : Type) where
  | done (result : α)
  /-- Goes on with the state as it is. -/
  | look (next : σ → Reaction σ α)
  | change (update : σ → σ) (next : Reaction σ α)
  /-- Sends a packet and goes on with the result. -/
  | send (packet : Packet) (next : Except BusError Unit → Reaction σ α)
  /-- Goes on with the number of frames sent so far. -/
  | sent (next : Nat → Reaction σ α)

namespace Reaction

variable {σ α β : Type}

protected def bind : Reaction σ α → (α → Reaction σ β) → Reaction σ β
  | done result, f => f result
  | look next, f => look fun world => (next world).bind f
  | change update next, f => change update (next.bind f)
  | send packet next, f => send packet fun result => (next result).bind f
  | sent next, f => sent fun count => (next count).bind f

instance : Monad (Reaction σ) where
  pure := done
  bind := Reaction.bind

/-- Carries a reaction out with the node's sink and payload bound. Gives its
result, the frames sent in all and the state left behind. -/
def run (sink : Option (Sink σ)) (bound : Nat) : Reaction σ α → Nat → σ → α × Nat × σ
  | done result, count, world => (result, count, world)
  | look next, count, world => (next world).run sink bound count world
  | change update next, count, world => next.run sink bound count (update world)
  | send packet next, count, world =>
    match transmit sink bound packet world with
    | (.ok (), world) => (next (.ok ())).run sink bound (count + 1) world
    | (.error cause, world) => (next (.error cause)).run sink bound count world
  | sent next, count, world => (next count).run sink bound count world

def transmit (packet : Packet) : Reaction σ (Except BusError Unit) :=
  send packet done

def sendTo (x : Exchange) (destination opCode : UInt8) (payload : List UInt8) :
    Reaction σ (Except BusError Unit) :=
  transmit ⟨x.self, destination, opCode, payload⟩

def reply (x : Exchange) (opCode : UInt8) (payload : List UInt8) :
    Reaction σ (Except BusError Unit) :=
  sendTo x x.peer opCode payload

def sentCount : Reaction σ Nat :=
  sent done

def world : Reaction σ σ :=
  look done

def modify (update : σ → σ) : Reaction σ Unit :=
  change update (done ())

end Reaction

/-- Decides how to react to each arrival. -/
abbrev Handler (σ : Type) := Exchange → Arrival → Reaction σ (Except BusError Unit)

end TwoWire
