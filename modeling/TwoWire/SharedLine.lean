import TwoWire.LineDriver

/-! A line in memory that several nodes share. What one of them writes goes into
the receive buffers of all others; how full one buffer is makes no difference to
another, nor to the writer. On request the line remembers its latest traffic. -/

namespace TwoWire

/-- One node's connection. Its number is its position among all connections ever
made, so numbers are not used twice. -/
structure Tap where
  attached : Bool := true
  driving : Bool := false
  buffer : Option ByteQueue := none
deriving DecidableEq

structure SharedLine where
  taps : List Tap := []
  transcript : List UInt8 := []
  /-- Bytes of traffic to remember. -/
  limit : Nat := 0
  bytesWritten : UInt64 := 0
  /-- While set, every write fails. -/
  shorted : Bool := false
deriving DecidableEq

namespace Tap

/-- Takes what is on the line, if it is there to listen. -/
def hear (bytes : List UInt8) (t : Tap) : Tap :=
  if t.attached then { t with buffer := t.buffer.map (·.accept bytes) } else t

end Tap

namespace SharedLine

/-- A line that remembers its latest traffic, up to so many bytes. -/
def withTranscript (limit : Nat) : SharedLine :=
  { limit }

def attach (l : SharedLine) : Nat × SharedLine :=
  (l.taps.length, { l with taps := l.taps ++ [{}] })

def nodeCount (l : SharedLine) : Nat :=
  l.taps.countP (·.attached)

def setShorted (on : Bool) (l : SharedLine) : SharedLine :=
  { l with shorted := on }

/-- How many of the bytes remembered have to go when some more are written. -/
def overflow (bytes : List UInt8) (l : SharedLine) : Nat :=
  l.transcript.length + min bytes.length l.limit - l.limit

/-- A list without its first elements, of which there have to be as many. -/
def dropFirst? {α : Type} (n : Nat) (l : List α) : Option (List α) :=
  if n ≤ l.length then some (l.drop n) else none

/-- The transcript after some more traffic: of the new bytes those that can be
remembered, behind as many of the old ones as there is still room for. To drop more
bytes than there are is an error. -/
def remember? (bytes : List UInt8) (l : SharedLine) : Option (List UInt8) :=
  if l.limit = 0 then some l.transcript
  else
    (dropFirst? (l.overflow bytes) l.transcript).bind fun kept =>
      (dropFirst? (bytes.length - min bytes.length l.limit) bytes).map fun latest =>
        kept ++ latest

theorem overflow_le (bytes : List UInt8) (l : SharedLine) :
    l.overflow bytes ≤ l.transcript.length := by
  unfold overflow
  omega

theorem remember?_eq (bytes : List UInt8) (l : SharedLine) :
    l.remember? bytes = some (
      if l.limit = 0 then l.transcript
      else l.transcript.drop (l.overflow bytes) ++
        bytes.drop (bytes.length - min bytes.length l.limit)) := by
  have hold := l.overflow_le bytes
  have hnew : bytes.length - min bytes.length l.limit ≤ bytes.length := Nat.sub_le _ _
  unfold remember?
  by_cases hlimit : l.limit = 0
  · rw [if_pos hlimit, if_pos hlimit]
  · rw [if_neg hlimit, if_neg hlimit, dropFirst?, if_pos hold, dropFirst?, if_pos hnew]
    rfl

theorem isSome_remember? (bytes : List UInt8) (l : SharedLine) : (l.remember? bytes).isSome := by
  rw [remember?_eq]
  rfl

/-- The transcript after some more traffic; there are always enough bytes to drop. -/
def remember (bytes : List UInt8) (l : SharedLine) : List UInt8 :=
  (l.remember? bytes).get (l.isSome_remember? bytes)

theorem remember_eq (bytes : List UInt8) (l : SharedLine) :
    l.remember bytes =
      if l.limit = 0 then l.transcript
      else l.transcript.drop (l.overflow bytes) ++
        bytes.drop (bytes.length - min bytes.length l.limit) := by
  simp only [remember, remember?_eq, Option.get_some]

def write (node : Nat) (bytes : List UInt8) (l : SharedLine) :
    Except LinkError Unit × SharedLine :=
  if l.shorted then (.error .lineFault, l)
  else
    (.ok (), { l with
      bytesWritten := l.bytesWritten + bytes.length.toUInt64
      transcript := l.remember bytes
      taps := l.taps.mapIdx fun i t => if i = node then t else t.hear bytes })

def connect (node : Nat) (buffer : ByteQueue) (l : SharedLine) :
    Except LinkError Unit × SharedLine :=
  match l.taps[node]? with
  | none => (.error (.detached node), l)
  | some t =>
    if t.attached then
      (.ok (), { l with taps := l.taps.set node { t with buffer := some buffer } })
    else (.error (.detached node), l)

def drive (node : Nat) (on : Bool) (l : SharedLine) : Except LinkError Unit × SharedLine :=
  (.ok (), { l with taps := l.taps.modify node fun t => { t with driving := on } })

def isDriven (node : Nat) (l : SharedLine) : Bool :=
  (l.taps[node]?).any (·.driving)

/-- Detaches a connection; what is in its buffer stays there for its owner. -/
def release (node : Nat) (l : SharedLine) : Except LinkError Unit × SharedLine :=
  (.ok (), { l with taps := l.taps.modify node fun t => { t with attached := false } })

/-- The receive buffer of a connection; one that never listened has none, and
nothing fits in it. -/
def buffer (node : Nat) : Place SharedLine ByteQueue where
  get l := ((l.taps[node]?).bind (·.buffer)).getD { capacity := 0 }
  set q l :=
    { l with taps := l.taps.modify node fun t => { t with buffer := t.buffer.map fun _ => q } }

def phy (node : Nat) : Phy SharedLine where
  connect := connect node
  drive := drive node
  write := write node
  release := release node
  buffer := buffer node

end SharedLine

end TwoWire
