import TwoWire.Outbox

/-! The task that writes. It waits for a frame, takes with it whatever else is
queued, up to a batch, writes the batch slice by slice until every byte is out, and
flushes. It ends well when all handles are gone and nothing is queued, and badly
with the first failure of the stream. -/

namespace TwoWire

/-- Frames in a batch at most. -/
def batchLimit : Nat := 64

inductive Progress (α : Type) where
  | ready (result : α)
  | notReady
  | failed (cause : StreamError)

/-- A stream to write to, on a state of its own. Writing takes some of the bytes
offered and says how many. -/
structure ByteStream (σ : Type) where
  write : List (List UInt8) → σ → Progress Nat × σ
  flush : σ → Progress Unit × σ

namespace Outbox

variable {σ : Type}

def finish (result : Except BusError Unit) (o : Outbox) : Outbox :=
  { o with task := .ended result, channel := o.channel.close }

/-- The next step of the task; none while it has nothing to do. -/
def step (stream : ByteStream σ) (o : Outbox) (world : σ) : Option (Outbox × σ) :=
  match o.task with
  | .waiting =>
    match o.channel.take with
    | (.item frame, channel) => some ({ o with channel, task := .gathering [frame] }, world)
    | (.nothing, _) => none
    | (.finished, _) => some (o.finish (.ok ()), world)
  | .gathering batch =>
    if batch.length < batchLimit then
      match o.channel.take with
      | (.item frame, channel) =>
        some ({ o with channel, task := .gathering (batch ++ [frame]) }, world)
      | _ => some ({ o with task := .writing batch 0 }, world)
    else some ({ o with task := .writing batch 0 }, world)
  | .writing batch written =>
    if written < Outgoing.totalSize batch then
      match stream.write (Outgoing.slicesFrom written batch) world with
      | (.ready taken, world) =>
        if taken = 0 then some (o.finish (.error (.stream .nothingTaken)), world)
        else some ({ o with task := .writing batch (written + taken) }, world)
      | (.notReady, world) => some (o, world)
      | (.failed cause, world) => some (o.finish (.error (.stream cause)), world)
    else some ({ o with task := .flushing batch }, world)
  | .flushing batch =>
    match stream.flush world with
    | (.ready (), world) =>
      some ({ o with task := .waiting, pending := o.pending - batch.length }, world)
    | (.notReady, world) => some (o, world)
    | (.failed cause, world) => some (o.finish (.error (.stream cause)), world)
  | .ended _ => none

/-- Steps that writing some frames can take: one for each byte and four more for
each frame. -/
def effortOf (frames : List Outgoing) : Nat :=
  Outgoing.totalSize frames + 4 * frames.length

/-- Steps until the task has nothing left to do, if no send is waiting and the
stream is always ready. -/
def effort (o : Outbox) : Nat :=
  effortOf o.channel.queued + 1 +
    match o.task with
    | .waiting | .ended _ => 0
    | .gathering batch | .writing batch _ => effortOf batch
    | .flushing _ => 1

/-- Carries out so many steps, or fewer if there is nothing left to do. -/
def work (stream : ByteStream σ) : Nat → Outbox → σ → Outbox × σ
  | 0, o, world => (o, world)
  | steps + 1, o, world =>
    match o.step stream world with
    | none => (o, world)
    | some (o, world) => o.work stream steps world

/-- Lets the task work until it has nothing left to do, with a stream that is not
ready at most so many times. -/
def settle (stream : ByteStream σ) (delays : Nat) (o : Outbox) (world : σ) : Outbox × σ :=
  o.work stream (o.effort + delays) world

/-- Sends a frame from the only sender there is: if there is no room, the task works
until it has nothing left to do. No answer if a sender that came earlier still waits
or if the task does not get that far. -/
def send (stream : ByteStream σ) (delays : Nat) (frame : Outgoing) (o : Outbox) (world : σ) :
    Option (Except BusError Unit × Outbox × σ) :=
  if !o.waiting.isEmpty then none
  else
    let o := o.beginSend frame
    match o.finishSend 0 with
    | some (result, o) => some (result, o, world)
    | none =>
      let (o, world) := o.settle stream delays world
      (o.finishSend 0).map fun (result, o) => (result, o, world)

/-- Sends a packet in the same way, if a frame can carry it. -/
def sendPacket (stream : ByteStream σ) (delays : Nat) (packet : Packet) (o : Outbox)
    (world : σ) : Option (Except BusError Unit × Outbox × σ) :=
  match Outgoing.ofPacket packet payloadLimit with
  | .error fault => some (.error (.badParam fault), o, world)
  | .ok frame => o.send stream delays frame world

end Outbox

end TwoWire
