import TwoWire.Bench.Responder
import TwoWire.Mailbox
import TwoWire.Node

/-! A node on the bench, with the buffer it drains and, where its handler is or was a
mailbox, the receiving end of that mailbox. -/

namespace TwoWire

inductive HandlerPlan where
  | mailbox (capacity : Nat)
  | responder (r : Responder)

/-- The handler and, for a mailbox, the number of its channel, which has to have
room for a packet. -/
def HandlerPlan.install {σ : Type} (bench : Place σ Bench) (plan : HandlerPlan) (world : σ) :
    Option ((Handler σ × Option Nat) × σ) :=
  match plan with
  | .responder r => some ((r.handler bench, none), world)
  | .mailbox capacity =>
    (Channel.ofCapacity? capacity).map fun channel =>
      let (id, world) := bench.run (Bench.addBox channel) world
      ((TwoWire.mailbox (bench.within (Bench.box id)), some id), world)

structure Station (σ : Type) where
  node : Node σ
  bench : Place σ Bench
  inbox : Place σ ByteQueue
  /-- The channel whose receiving end is kept. -/
  box : Option Nat := none

namespace Station

variable {σ : Type}

/-- Replaces the handler. The receiving end of a mailbox goes with it. -/
def setHandler (plan : HandlerPlan) (s : Station σ) (world : σ) : Option (Station σ × σ) :=
  (plan.install s.bench world).map fun ((handler, box), world) =>
    ({ s with node := { s.node with handler := some handler }, box }, world)

/-- Something done to the kept channel, if there is one. -/
def atBox {α : Type} (missing : α) (step : Channel Packet → α × Channel Packet)
    (s : Station σ) (world : σ) : α × σ :=
  match s.box with
  | none => (missing, world)
  | some id => (s.bench.within (Bench.box id)).run step world

/-- Removes the handler. A mailbox's receiving end is kept, with no sender left. -/
def clearHandler (s : Station σ) (world : σ) : Station σ × σ :=
  let ((), world) := s.atBox () (fun c => ((), c.dropSender)) world
  ({ s with node := { s.node with handler := none } }, world)

def closeBox (s : Station σ) (world : σ) : Station σ × σ :=
  let ((), world) := s.atBox () (fun c => ((), c.close)) world
  ({ s with box := none }, world)

/-- Takes a packet out of the mailbox; no answer without one. -/
def take (s : Station σ) (world : σ) : Option (Taken Packet) × σ :=
  s.atBox none (fun c => let (taken, c) := c.take; (some taken, c)) world

def takeAll (s : Station σ) (world : σ) : List Packet × σ :=
  s.atBox [] Channel.takeAll world

end Station

structure StationPlan (σ : Type) where
  address : Option UInt8
  settings : Settings
  handler : Option HandlerPlan := none
  sink : Option (σ → Sink σ × σ) := none

namespace StationPlan

variable {σ : Type} (bench : Place σ Bench) (inbox : Place σ ByteQueue)

def equip (p : StationPlan σ) (node : Node σ) (world : σ) : Option (Station σ × σ) :=
  let (sink, world) := match p.sink with
    | none => (none, world)
    | some make => let (sink, world) := make world; (some sink, world)
  let s : Station σ := { node := { node with sink }, bench, inbox }
  match p.handler with
  | none => some (s, world)
  | some plan => s.setHandler plan world

def create (p : StationPlan σ) (world : σ) :
    Option (Except ParamFault (Station σ) × σ) :=
  match Node.build p.address p.settings none none with
  | .error fault => some (.error fault, world)
  | .ok node => (p.equip bench inbox node world).map fun (s, world) => (.ok s, world)

/-- Has all parts ready and then makes the node of them, so that a mailbox without
room is noticed before unsuitable settings. -/
def build (p : StationPlan σ) (world : σ) :
    Option (Except ParamFault (Station σ) × σ) :=
  let blank : Node σ := { address := 0, settings := {}, assembler := .withBound payloadLimit }
  (p.equip bench inbox blank world).map fun (s, world) =>
    ((Node.build p.address p.settings s.node.handler s.node.sink).map
      fun node => { s with node }, world)

end StationPlan

end TwoWire
