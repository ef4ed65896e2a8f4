/-! What a node counts. Counters are machine words and wrap around. -/

namespace TwoWire

structure Counters where
  bytesReceived : UInt64 := 0
  framesDispatched : UInt64 := 0
  framesFiltered : UInt64 := 0
  framesUnhandled : UInt64 := 0
  lengthErrors : UInt64 := 0
  callbackFailures : UInt64 := 0
  idleResets : UInt64 := 0
  framesSent : UInt64 := 0
deriving DecidableEq

inductive Counter where
  | bytesReceived | framesDispatched | framesFiltered | framesUnhandled
  | lengthErrors | callbackFailures | idleResets | framesSent
deriving DecidableEq

/-- All counters, in the order in which they are reported. -/
def Counter.all : List Counter :=
  [bytesReceived, framesDispatched, framesFiltered, framesUnhandled,
    lengthErrors, callbackFailures, idleResets, framesSent]

/-- The name of a counter in reports and in texts. -/
def Counter.name : Counter → String
  | bytesReceived => "bytes_received"
  | framesDispatched => "frames_dispatched"
  | framesFiltered => "frames_filtered"
  | framesUnhandled => "frames_unhandled"
  | lengthErrors => "length_errors"
  | callbackFailures => "callback_failures"
  | idleResets => "idle_resets"
  | framesSent => "frames_sent"

namespace Counters

def get (c : Counters) : Counter → UInt64
  | .bytesReceived => c.bytesReceived
  | .framesDispatched => c.framesDispatched
  | .framesFiltered => c.framesFiltered
  | .framesUnhandled => c.framesUnhandled
  | .lengthErrors => c.lengthErrors
  | .callbackFailures => c.callbackFailures
  | .idleResets => c.idleResets
  | .framesSent => c.framesSent

def ofValues (value : Counter → UInt64) : Counters where
  bytesReceived := value .bytesReceived
  framesDispatched := value .framesDispatched
  framesFiltered := value .framesFiltered
  framesUnhandled := value .framesUnhandled
  lengthErrors := value .lengthErrors
  callbackFailures := value .callbackFailures
  idleResets := value .idleResets
  framesSent := value .framesSent

@[simp] theorem ofValues_get (c : Counters) : ofValues c.get = c := rfl

end Counters

theorem Counter.mem_all (c : Counter) : c ∈ all := by
  cases c <;> decide

end TwoWire
