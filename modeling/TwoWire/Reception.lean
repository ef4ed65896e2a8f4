import TwoWire.Node

/-! Receiving from a stream until it ends. Every byte goes to the node, which has
recovered by the time it reports a failure, so such failures do not end reception;
a read that takes longer than the idle time-out drops the frame in progress. -/

namespace TwoWire

/-- Bytes asked for in one read unless another number is given. -/
def readBufferSize : Nat := 256

/-- How a read ended. Bytes come with the time at which they came. -/
inductive ReadOutcome where
  | chunk (now : Nat) (bytes : List UInt8)
  | timedOut
  | closed
  | failed (cause : StreamError)
deriving DecidableEq

/-- What is on its way to a reader: bytes, silence for some nanoseconds, or the
failure of the stream. -/
inductive Inflow where
  | data (bytes : List UInt8)
  | silence (nanos : Nat)
  | failure (cause : StreamError)
deriving DecidableEq

namespace Inflow

/-- What reads into a buffer with room for so many bytes bring of some bytes; without any room
they bring nothing. -/
def chunks (size : Nat) (bytes : List UInt8) : List (List UInt8) :=
  if bytes = [] ∨ size = 0 then []
  else bytes.take size :: chunks size (bytes.drop size)
termination_by bytes.length
decreasing_by
  rename_i h
  obtain ⟨hbytes, hsize⟩ := not_or.mp h
  have hlength := List.length_pos_iff.mpr hbytes
  rw [List.length_drop]
  omega

/-- The reads that time out while nothing comes for so long. A reader that may not wait at all
times out over and over then; one time-out stands for all of these, since the first of them
leaves no frame in progress. -/
def timeouts (timeout : Option Nat) (waited : Nat) : List ReadOutcome :=
  match timeout with
  | none => []
  | some timeout =>
    List.replicate (if timeout = 0 then min waited 1 else waited / timeout) .timedOut

/-- The reads that what is coming turns into, at a time and after having waited so
long already. A read that brings no bytes is the end of the stream. -/
def reads (bufferSize : Nat) (timeout : Option Nat) :
    Nat → Nat → List Inflow → List ReadOutcome
  | _, waited, [] => timeouts timeout waited ++ [.closed]
  | now, waited, .silence nanos :: rest =>
    reads bufferSize timeout (now + nanos) (waited + nanos) rest
  | now, waited, .data bytes :: rest =>
    timeouts timeout waited ++
      match chunks bufferSize bytes with
      | [] => [.closed]
      | pieces => pieces.map (.chunk now) ++ reads bufferSize timeout now 0 rest
  | _, waited, .failure cause :: _ => timeouts timeout waited ++ [.failed cause]

end Inflow

namespace Node

variable {σ : Type}

/-- Takes what one read after the other brings, until the stream ends or fails. An
end gives the counters. -/
def listen : List ReadOutcome → Node σ → σ → Except BusError Counters × Node σ × σ
  | [], n, world => (.ok n.counters, n, world)
  | .chunk now bytes :: rest, n, world =>
    let (_, n, world) := n.receiveAll now bytes world
    n.listen rest world
  | .timedOut :: rest, n, world => n.expire.2.listen rest world
  | .closed :: _, n, world => (.ok n.counters, n, world)
  | .failed cause :: _, n, world => (.error (.stream cause), n, world)

/-- The idle time-out of reception in nanoseconds: its own if it has one, else that
of the node. -/
def readTimeout (own : Option Span) (n : Node σ) : Option Nat :=
  (own.or n.settings.idleSpan).map Span.toNanos

/-- The reads of reception from a stream. The buffer has room for one byte at the least: with
none, the first read would look like the end of the stream. -/
def readsFrom (bufferSize : Nat) (timeout : Option Span) (now : Nat) (inflow : List Inflow)
    (n : Node σ) : List ReadOutcome :=
  Inflow.reads (max bufferSize 1) (n.readTimeout timeout) now 0 inflow

def receiveFrom (bufferSize : Nat) (timeout : Option Span) (now : Nat) (inflow : List Inflow)
    (n : Node σ) (world : σ) : Except BusError Counters × Node σ × σ :=
  n.listen (n.readsFrom bufferSize timeout now inflow) world

end Node

end TwoWire
