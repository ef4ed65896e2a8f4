import TwoWire.Outbox.Task

/-! A stream by script: each write takes what it is told to, or is not ready, or
fails, and every call is recorded. What the script leaves open goes well. -/

namespace TwoWire

inductive WriteScript where
  | all
  | atMost (n : Nat)
  | notReady
  | fail (cause : StreamError)
deriving DecidableEq

/-- A call of the stream: the bytes and slices it was offered, and what it took of
them unless it failed, or a flush. -/
inductive StreamCall where
  | write (offered slices : Nat) (taken : Option (List UInt8))
  | flush
deriving DecidableEq

structure ScriptedStream where
  writes : List WriteScript := []
  flushes : List (Option StreamError) := []
  calls : List StreamCall := []
deriving DecidableEq

namespace ScriptedStream

def note (call : StreamCall) (s : ScriptedStream) : ScriptedStream :=
  { s with calls := s.calls ++ [call] }

def write (slices : List (List UInt8)) (s : ScriptedStream) : Progress Nat × ScriptedStream :=
  let bytes := slices.flatten
  let rest := { s with writes := s.writes.drop 1 }
  let take (n : Nat) : Progress Nat × ScriptedStream :=
    (.ready (min n bytes.length),
      rest.note (.write bytes.length slices.length (some (bytes.take n))))
  match s.writes.head?.getD .all with
  | .all => take bytes.length
  | .atMost n => take n
  | .notReady => (.notReady, rest)
  | .fail cause => (.failed cause, rest.note (.write bytes.length slices.length none))

def flush (s : ScriptedStream) : Progress Unit × ScriptedStream :=
  let rest := { s with flushes := s.flushes.drop 1 }.note .flush
  match s.flushes.head?.join with
  | none => (.ready (), rest)
  | some cause => (.failed cause, rest)

def stream : ByteStream ScriptedStream := ⟨write, flush⟩

end ScriptedStream

end TwoWire
