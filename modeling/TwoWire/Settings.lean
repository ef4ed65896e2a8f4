import TwoWire.Error
import TwoWire.Span

/-! Settings of a node, their limits, and changing them one at a time. -/

namespace TwoWire

/-- Which completed frames reach the handler. -/
inductive Filter where
  | everything
  | addressed
deriving DecidableEq

/-- Under `addressed` a frame has to name the node or the broadcast address. -/
def Filter.accepts (f : Filter) (destination self : UInt8) (broadcast : Option UInt8) : Bool :=
  match f with
  | everything => true
  | addressed => destination == self || broadcast == some destination

structure Settings where
  /-- Longest payload received or sent. -/
  payloadBound : UInt64 := 64
  filter : Filter := .everything
  broadcast : Option UInt8 := none
  /-- Milliseconds without a byte after which a partial frame is dropped. -/
  idleTimeout : Option UInt64 := none
deriving DecidableEq

inductive Setting where
  | payloadBound (bound : UInt64)
  | filter (filter : Filter)
  | broadcast (address : Option UInt8)
  | idleTimeout (ms : Option UInt64)
deriving DecidableEq

namespace Settings

/-- The payload bound is checked before the idle time-out. -/
def check (s : Settings) : Except ParamFault Unit :=
  if s.payloadBound = 0 ∨ s.payloadBound.toNat > payloadLimit then
    .error (.boundOutOfRange s.payloadBound.toNat)
  else if s.idleTimeout = some 0 then .error .zeroIdleTimeout
  else .ok ()

def assign (s : Settings) : Setting → Settings
  | .payloadBound bound => { s with payloadBound := bound }
  | .filter filter => { s with filter }
  | .broadcast address => { s with broadcast := address }
  | .idleTimeout ms => { s with idleTimeout := ms }

def longestTimeout : Nat := 18446744073709551615

/-- Sets the idle time-out to a span, rounded up to whole milliseconds. -/
def withIdleTimeout (s : Settings) (span : Span) : Settings :=
  { s with idleTimeout := some (min span.ceilMillis longestTimeout).toUInt64 }

def idleSpan (s : Settings) : Option Span :=
  s.idleTimeout.map Span.ofMillis

end Settings

end TwoWire
