import TwoWire.Error

/-! The receive buffer between the hardware and the protocol: a bounded queue of
bytes. Whoever produces bytes and whoever consumes them work on the same queue. -/

namespace TwoWire

structure ByteQueue where
  capacity : Nat
  bytes : List UInt8 := []
deriving DecidableEq

namespace ByteQueue

/-- The largest capacity: positions in memory are signed words. -/
def capacityLimit : Nat := Nat.pow 2 63 - 1

/-- An empty queue, if memory can be asked for so many bytes. -/
def ofCapacity? (capacity : Nat) : Option ByteQueue :=
  if capacity ≤ capacityLimit then some { capacity } else none

def length (q : ByteQueue) : Nat :=
  q.bytes.length

def isEmpty (q : ByteQueue) : Bool :=
  q.bytes.isEmpty

def isFull (q : ByteQueue) : Bool :=
  q.capacity ≤ q.length

/-- Adds a byte behind the others, if there is room. -/
def push (byte : UInt8) (q : ByteQueue) : Except LinkError Unit × ByteQueue :=
  if q.isFull then (.error .bufferFull, q) else (.ok (), { q with bytes := q.bytes ++ [byte] })

def pop (q : ByteQueue) : Except LinkError UInt8 × ByteQueue :=
  match q.bytes with
  | [] => (.error .bufferEmpty, q)
  | byte :: rest => (.ok byte, { q with bytes := rest })

def peek? (q : ByteQueue) : Option UInt8 :=
  q.bytes.head?

/-- Moves bytes into the front of `out`, as many as there are and as fit. Gives
their number and `out` afterwards. -/
def readInto (out : List UInt8) (q : ByteQueue) : Nat × List UInt8 × ByteQueue :=
  let n := min out.length q.length
  (n, q.bytes.take n ++ out.drop n, { q with bytes := q.bytes.drop n })

def clear (q : ByteQueue) : ByteQueue :=
  { q with bytes := [] }

/-- Pushes bytes one after another and gives the result of each. -/
def pushAll : List UInt8 → ByteQueue → List (Except LinkError Unit) × ByteQueue
  | [], q => ([], q)
  | byte :: rest, q =>
    let (result, q) := q.push byte
    let (results, q) := pushAll rest q
    (result :: results, q)

/-- Takes the bytes that fit and drops the rest. -/
def accept (bytes : List UInt8) (q : ByteQueue) : ByteQueue :=
  (pushAll bytes q).2

@[simp] theorem bytes_clear (q : ByteQueue) : q.clear.bytes = [] := rfl

theorem pop_cons (capacity : Nat) (byte : UInt8) (rest : List UInt8) :
    pop ⟨capacity, byte :: rest⟩ = (.ok byte, ⟨capacity, rest⟩) := rfl

end ByteQueue

end TwoWire
