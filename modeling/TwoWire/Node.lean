import TwoWire.Assembler
import TwoWire.ByteQueue
import TwoWire.Counters
import TwoWire.Place
import TwoWire.Reaction
import TwoWire.Settings

/-! A node on the bus: its address and settings, the frame it is assembling, the
handler and the sink registered with it, and what it has counted. The state `σ`
around it is whatever its handler and its sink share with the rest of the world.
Times are nanoseconds on some clock of the caller's. -/

namespace TwoWire

structure Node (σ : Type) where
  address : UInt8
  settings : Settings
  assembler : Assembler
  handler : Option (Handler σ) := none
  sink : Option (Sink σ) := none
  counters : Counters := {}
  /-- When the last byte came; kept only where an idle time-out is set. -/
  lastByte : Option Nat := none

namespace Node

variable {σ : Type}

/-- A node with neither handler nor sink. Its settings have to be in order, and
its address must not be the broadcast address. -/
def create (address : UInt8) (settings : Settings) : Except ParamFault (Node σ) :=
  match settings.check with
  | .error fault => .error fault
  | .ok () =>
    if settings.broadcast = some address then .error (.broadcastAddress address)
    else .ok { address, settings, assembler := .withBound settings.payloadBound.toNat }

/-- A node from parts, of which the address is required. -/
def build (address : Option UInt8) (settings : Settings) (handler : Option (Handler σ))
    (sink : Option (Sink σ)) : Except ParamFault (Node σ) :=
  match address with
  | none => .error .addressMissing
  | some address => (create address settings).map fun (n : Node σ) => { n with handler, sink }

/-- Sends a packet; reception is not affected. -/
def send (packet : Packet) (n : Node σ) (world : σ) : Except BusError Unit × Node σ × σ :=
  match transmit n.sink n.settings.payloadBound.toNat packet world with
  | (.ok (), world) =>
    (.ok (), { n with counters.framesSent := n.counters.framesSent + 1 }, world)
  | (.error cause, world) =>
    if cause.isCallbackFailed then
      (.error cause,
        { n with counters.callbackFailures := n.counters.callbackFailures + 1 }, world)
    else (.error cause, n, world)

def sendTo (destination opCode : UInt8) (payload : List UInt8) (n : Node σ) (world : σ) :
    Except BusError Unit × Node σ × σ :=
  n.send ⟨n.address, destination, opCode, payload⟩ world

/-- What becomes of a completed frame: dropped by the filter, left for want of a
handler, or handled. -/
def deliver (arrival : Arrival) (n : Node σ) (world : σ) :
    Except BusError Unit × Node σ × σ :=
  if !n.settings.filter.accepts arrival.header.destination n.address n.settings.broadcast then
    (.ok (), { n with counters.framesFiltered := n.counters.framesFiltered + 1 }, world)
  else
    match n.handler with
    | none =>
      (.ok (), { n with counters.framesUnhandled := n.counters.framesUnhandled + 1 }, world)
    | some handler =>
      let reaction := handler ⟨n.address, arrival.header.source⟩ arrival
      let (result, sent, world) :=
        reaction.run n.sink n.settings.payloadBound.toNat 0 world
      let counters := { n.counters with
        framesSent := n.counters.framesSent + sent.toUInt64
        framesDispatched := n.counters.framesDispatched + 1 }
      match result with
      | .ok () => (.ok (), { n with counters }, world)
      | .error cause =>
        (.error (.ofCallback cause),
          { n with counters :=
            { counters with callbackFailures := counters.callbackFailures + 1 } }, world)

def receive (now : Nat) (byte : UInt8) (n : Node σ) (world : σ) :
    Except BusError Unit × Node σ × σ :=
  let n := { n with
    counters.bytesReceived := n.counters.bytesReceived + 1
    lastByte := if n.settings.idleTimeout.isSome then some now else n.lastByte }
  match n.assembler.feed byte with
  | (.error fault, assembler) =>
    (.error (.badParam fault),
      { n with assembler, counters.lengthErrors := n.counters.lengthErrors + 1 }, world)
  | (.ok none, assembler) => (.ok (), { n with assembler }, world)
  | (.ok (some arrival), assembler) => { n with assembler }.deliver arrival world

/-- The earlier of two failures. -/
def firstFailure {α : Type} : Except BusError Unit → Except BusError α → Except BusError α
  | .error cause, _ => .error cause
  | .ok (), later => later

/-- Takes every byte, failures or not, and reports the first failure. -/
def receiveAll (now : Nat) : List UInt8 → Node σ → σ → Except BusError Unit × Node σ × σ
  | [], n, world => (.ok (), n, world)
  | byte :: rest, n, world =>
    let (result, n, world) := n.receive now byte world
    let (later, n, world) := n.receiveAll now rest world
    (firstFailure result later, n, world)

/-- Takes bytes from a buffer until it is empty and counts them. No answer if that
takes more than the given number of looks into the buffer. -/
def drainWithin (inbox : Place σ ByteQueue) (now : Nat) :
    Nat → Node σ → σ → Option (Except BusError Nat × Node σ × σ)
  | 0, _, _ => none
  | looks + 1, n, world =>
    match inbox.run ByteQueue.pop world with
    | (.error _, world) => some (.ok 0, n, world)
    | (.ok byte, world) =>
      let (result, n, world) := n.receive now byte world
      match n.drainWithin inbox now looks world with
      | none => none
      | some (later, n, world) => some (firstFailure result (later.map (· + 1)), n, world)

/-- Takes all that a buffer holds. There is an answer unless handlers fill the
buffer again meanwhile. -/
def drain (inbox : Place σ ByteQueue) (now : Nat) (n : Node σ) (world : σ) :
    Option (Except BusError Nat × Node σ × σ) :=
  n.drainWithin inbox now ((inbox.get world).length + 1) world

/-- Drops and counts the frame in progress, if there is one. -/
def expire (n : Node σ) : Bool × Node σ :=
  if n.assembler.isIdle then (false, n)
  else
    (true, { n with
      assembler := n.assembler.reset
      counters.idleResets := n.counters.idleResets + 1 })

/-- Drops the frame in progress if the time-out has passed since the last byte. A
clock reading before that byte counts as no time at all. -/
def checkIdle (now : Nat) (n : Node σ) : Bool × Node σ :=
  match n.settings.idleSpan, n.lastByte with
  | some timeout, some last => if now - last < timeout.toNanos then (false, n) else n.expire
  | _, _ => (false, n)

def reset (n : Node σ) : Node σ :=
  { n with assembler := n.assembler.reset }

end Node

end TwoWire
