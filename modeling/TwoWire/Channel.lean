import TwoWire.Error

/-! A bounded queue between senders and one receiver, each of which may go away.
Without its receiver it refuses everything; without senders it ends once it is
empty. -/

namespace TwoWire

structure Channel (α : Type) where
  capacity : Nat
  queued : List α := []
  senders : Nat := 1
  receiving : Bool := true
deriving DecidableEq

inductive ChannelFault where
  | full | closed
deriving DecidableEq

def BusError.ofChannel : ChannelFault → BusError
  | .full => .queueFull
  | .closed => .channelClosed

inductive Taken (α : Type) where
  | item (x : α)
  | nothing
  | finished
deriving DecidableEq

namespace Channel

variable {α : Type}

def capacityLimit : Nat := Nat.pow 2 61 - 1

/-- An empty channel with one sender. It has to have room for an item. -/
def ofCapacity? (capacity : Nat) : Option (Channel α) :=
  if capacity = 0 ∨ capacityLimit < capacity then none else some { capacity }

theorem eq_of_ofCapacity? {capacity : Nat} {c : Channel α} (h : ofCapacity? capacity = some c) :
    c = { capacity } := by
  unfold ofCapacity? at h
  split at h
  · cases h
  · exact (Option.some.inj h).symm

def hasRoom (c : Channel α) : Bool :=
  c.queued.length < c.capacity

/-- Queues an item without waiting. That the receiver is gone is reported first. -/
def offer (x : α) (c : Channel α) : Except ChannelFault Unit × Channel α :=
  if !c.receiving then (.error .closed, c)
  else if c.hasRoom then (.ok (), { c with queued := c.queued ++ [x] })
  else (.error .full, c)

theorem offer_of_closed {c : Channel α} (h : c.receiving = false) (x : α) :
    c.offer x = (.error .closed, c) := by
  simp [offer, h]

theorem offer_of_room {c : Channel α} (h : c.receiving = true)
    (room : c.queued.length < c.capacity) (x : α) :
    c.offer x = (.ok (), { c with queued := c.queued ++ [x] }) := by
  simp [offer, h, hasRoom, room]

theorem offer_of_full {c : Channel α} (h : c.receiving = true)
    (full : ¬c.queued.length < c.capacity) (x : α) : c.offer x = (.error .full, c) := by
  simp [offer, h, hasRoom, full]

def take (c : Channel α) : Taken α × Channel α :=
  match c.queued with
  | x :: rest => (.item x, { c with queued := rest })
  | [] => (if c.senders = 0 then .finished else .nothing, c)

def takeAll (c : Channel α) : List α × Channel α :=
  (c.queued, { c with queued := [] })

def addSender (c : Channel α) : Channel α :=
  { c with senders := c.senders + 1 }

def dropSender (c : Channel α) : Channel α :=
  { c with senders := c.senders - 1 }

/-- The receiver goes away and what was queued with it. -/
def close (c : Channel α) : Channel α :=
  { c with queued := [], receiving := false }

end Channel

end TwoWire
