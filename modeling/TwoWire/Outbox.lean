import TwoWire.Channel
import TwoWire.Outgoing

/-! Frames on their way to a stream, seen from those who hand them over. A bounded
channel leads to the one task that writes. Besides, it is counted how many frames
are on their way: a frame counts before it enters the channel, and no longer once
the batch it was written with is flushed. -/

namespace TwoWire

/-- Room in the channel unless another capacity is asked for. -/
def outboxCapacity : Nat := 256

/-- Where the writing task is: waiting for a frame, taking what else is queued,
writing a batch of which so many bytes are out, flushing it, or at its end. -/
inductive TaskPhase where
  | waiting
  | gathering (batch : List Outgoing)
  | writing (batch : List Outgoing) (written : Nat)
  | flushing (batch : List Outgoing)
  | ended (result : Except BusError Unit)

structure Outbox where
  channel : Channel Outgoing
  /-- Frames counted and not yet flushed. -/
  pending : Nat := 0
  /-- Frames of senders that wait for room. -/
  waiting : List Outgoing := []
  task : TaskPhase := .waiting

namespace Outbox

/-- An empty outbox with one handle. Its channel has to have room for a frame. -/
def ofCapacity? (capacity : Nat) : Option Outbox :=
  (Channel.ofCapacity? capacity).map fun channel => { channel }

def isClosed (o : Outbox) : Bool :=
  !o.channel.receiving

def offer (frame : Outgoing) (o : Outbox) : Except BusError Unit × Outbox :=
  let o := { o with pending := o.pending + 1 }
  match o.channel.offer frame with
  | (.ok (), channel) => (.ok (), { o with channel })
  | (.error fault, channel) =>
    (.error (.ofChannel fault), { o with channel, pending := o.pending - 1 })

def transmit (bytes : List UInt8) (o : Outbox) : Except BusError Unit × Outbox :=
  match Outgoing.ofEncoded bytes with
  | .error fault => (.error (.badParam fault), o)
  | .ok frame => o.offer frame

/-- Begins to send a frame: from now on it counts, and its sender waits. -/
def beginSend (frame : Outgoing) (o : Outbox) : Outbox :=
  { o with pending := o.pending + 1, waiting := o.waiting ++ [frame] }

/-- Finishes one of the waiting sends: the channel takes the frame, or there is
nobody left to take it. No answer while the channel is full. -/
def finishSend (i : Nat) (o : Outbox) : Option (Except BusError Unit × Outbox) :=
  match o.waiting[i]? with
  | none => none
  | some frame =>
    match o.channel.offer frame with
    | (.ok (), channel) => some (.ok (), { o with channel, waiting := o.waiting.eraseIdx i })
    | (.error .closed, _) =>
      some (.error .channelClosed,
        { o with pending := o.pending - 1, waiting := o.waiting.eraseIdx i })
    | (.error .full, _) => none

def abandonSend (i : Nat) (o : Outbox) : Outbox :=
  { o with waiting := o.waiting.eraseIdx i }

def share (o : Outbox) : Outbox :=
  { o with channel := o.channel.addSender }

def dropHandle (o : Outbox) : Outbox :=
  { o with channel := o.channel.dropSender }

end Outbox

end TwoWire
