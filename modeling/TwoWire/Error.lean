import TwoWire.Limits
import TwoWire.Text.Hex

/-! Causes of failure, one type per layer, and the wording of each. A cause keeps
the values it is about; only the `message` functions know the texts. -/

namespace TwoWire

/-- A value outside its contract, from a caller or from the line. -/
inductive ParamFault where
  | payloadTooLong (length bound : Nat)
  | bufferTooSmall (size capacity : Nat)
  | headerMissing (size : Nat)
  | sizeMismatch (size declared : Nat)
  | boundOutOfRange (bound : Nat)
  | zeroIdleTimeout
  | addressMissing
  | broadcastAddress (address : UInt8)
  | encodingTooLong (size bound : Nat)
  | other (text : String)
deriving DecidableEq

def ParamFault.message : ParamFault → String
  | payloadTooLong length bound => s!"Payload length {length} exceeds maximum {bound}"
  | bufferTooSmall size capacity => s!"Frame of {size} bytes does not fit buffer of {capacity}"
  | headerMissing size => s!"Frame of {size} bytes has no header"
  | sizeMismatch size declared => s!"Frame of {size} bytes declares {declared}"
  | boundOutOfRange bound => s!"max_data_len {bound} outside 1..={payloadLimit}"
  | zeroIdleTimeout => "idle_timeout_ms must be non-zero"
  | addressMissing => "self address not set"
  | broadcastAddress address =>
    let shown := hexText address
    s!"self address {shown} is the broadcast address"
  | encodingTooLong size bound => s!"Encoded payload of {size} bytes exceeds maximum {bound}"
  | other text => text

inductive LinkErrorKind where
  | bufferEmpty | bufferFull | badParam | ioLayer | internal
deriving DecidableEq

/-- What can go wrong between a line driver, its receive buffer and its hardware. -/
inductive LinkError where
  | bufferEmpty
  | bufferFull
  | zeroBuffer
  | emptyTransmission
  | badParam (text : String)
  | connectFailed (cause : LinkError)
  | disableFailed (cause : LinkError)
  | lineFault
  | ioLayer (text : String)
  | transmitterOff
  | releaseFailed (cause : LinkError)
  | detached (node : Nat)
  | internal (text : String)
deriving DecidableEq

namespace LinkError

def kind : LinkError → LinkErrorKind
  | bufferEmpty => .bufferEmpty
  | bufferFull => .bufferFull
  | zeroBuffer | emptyTransmission | badParam _ => .badParam
  | connectFailed _ | disableFailed _ | lineFault | ioLayer _ => .ioLayer
  | transmitterOff | releaseFailed _ | detached _ | internal _ => .internal

def message : LinkError → String
  | bufferEmpty => "Rx buffer empty"
  | bufferFull => "Rx buffer full"
  | zeroBuffer => "Bad parameter: rx buffer length must be non-zero"
  | emptyTransmission => "Bad parameter: nothing to transmit"
  | badParam text => "Bad parameter: " ++ text
  | connectFailed cause => "IO layer error: init failed: " ++ cause.message
  | disableFailed cause => "IO layer error: disabling transmitter failed: " ++ cause.message
  | lineFault => "IO layer error: bus fault"
  | ioLayer text => "IO layer error: " ++ text
  | transmitterOff => "Internal error: write with transmitter disabled"
  | releaseFailed cause => "Internal error: deinit failed: " ++ cause.message
  | detached node => s!"Internal error: node {node} detached"
  | internal text => "Internal error: " ++ text

end LinkError

inductive StreamErrorKind where
  | brokenPipe | connectionReset | timedOut | unexpectedEnd | writeZero | other
deriving DecidableEq

/-- A failure of a byte stream, with the text that the stream gives for it. -/
structure StreamError where
  kind : StreamErrorKind
  text : String
deriving DecidableEq

/-- A stream that takes no byte of what it is offered has stopped writing. -/
def StreamError.nothingTaken : StreamError :=
  ⟨.writeZero, "write_vectored returned 0"⟩

/-- How a text fails to be what a reader expects: not in the grammar, a value the
reader has no use for, or at its end too early. -/
inductive TextFault where
  | malformed | unfit | truncated
deriving DecidableEq

/-- Failures that a node, its callbacks and its transports report. -/
inductive BusError where
  | badParam (fault : ParamFault)
  | callbackFailed (cause : BusError)
  | noSink
  | link (cause : LinkError)
  | stream (cause : StreamError)
  | settingsText (fault : TextFault)
  | packRefused (reason : String)
  | unpackFailed
  | queueFull
  | channelClosed
deriving DecidableEq

namespace BusError

def message : BusError → String
  | badParam fault => "Bad parameter: " ++ fault.message
  | callbackFailed cause => "Callback failed: " ++ cause.message
  | noSink => "Transmit sink not registered"
  | link cause => "Transceiver error: " ++ cause.message
  | stream cause => "I/O error: " ++ cause.text
  | settingsText .malformed => "JSON error: malformed text"
  | settingsText .unfit => "JSON error: unsuitable value"
  | settingsText .truncated => "JSON error: unexpected end of text"
  | packRefused reason => "MsgPack encode error: " ++ reason
  | unpackFailed => "MsgPack decode error: no such value"
  | queueFull => "Queue full"
  | channelClosed => "Channel closed"

def isBadParam : BusError → Bool
  | badParam _ => true
  | _ => false

def isCallbackFailed : BusError → Bool
  | callbackFailed _ => true
  | _ => false

/-- The failure of a handler or a sink as its caller sees it: wrapped once, and
left alone if it already is such a failure. -/
def ofCallback : BusError → BusError
  | callbackFailed cause => callbackFailed cause
  | cause => callbackFailed cause

end BusError

end TwoWire
