import TwoWire.Proofs.NodeReception

/-! What is done with a node over time, and the history of what bore on the frame in
progress: bytes, questions whether that frame has expired, and resets. -/

namespace TwoWire

variable {σ : Type}

inductive Node.Move (σ : Type) where
  | receive (now : Nat) (byte : UInt8)
  | receiveAll (now : Nat) (bytes : List UInt8)
  | drain (inbox : Place σ ByteQueue) (now looks : Nat)
  | send (packet : Packet)
  | sendTo (destination opCode : UInt8) (payload : List UInt8)
  | setHandler (handler : Option (Handler σ))
  | setSink (sink : Option (Sink σ))
  | checkIdle (now : Nat)
  | expire
  | reset
  | outside (update : σ → σ)

/-- A byte with the result of receiving it, a question whether the frame in progress has
expired with its answer, or a reset. -/
inductive Occurrence where
  | byte (byte : UInt8) (result : Except BusError Unit)
  | expiry (answer : Bool)
  | reset

/-- An occurrence with the node that met it and what became of that node. -/
structure Event (σ : Type) where
  before : Node σ
  occurrence : Occurrence
  after : Node σ

namespace Event

/-- What a byte brings: nothing yet, a frame, or the fault of a length above the bound. -/
def brought (e : Event σ) : Except ParamFault (Option Arrival) :=
  match e.occurrence with
  | .byte byte _ => (e.before.assembler.feed byte).1
  | _ => .ok none

def frame? (e : Event σ) : Option Arrival :=
  match e.brought with
  | .ok arrival? => arrival?
  | .error _ => none

end Event

/-- The event that a byte is. -/
def Node.received (now : Nat) (byte : UInt8) (n : Node σ) (world : σ) : Event σ where
  before := n
  occurrence := .byte byte (n.receive now byte world).1
  after := (n.receive now byte world).2.1

structure Chronicle (σ : Type) where
  node : Node σ
  world : σ
  events : List (Event σ) := []

namespace Chronicle

def note (occurrence : Occurrence) (after : Node σ) (world : σ) (c : Chronicle σ) :
    Chronicle σ where
  node := after
  world := world
  events := c.events ++ [⟨c.node, occurrence, after⟩]

def receive (now : Nat) (byte : UInt8) (c : Chronicle σ) : Chronicle σ :=
  let (result, node, world) := c.node.receive now byte c.world
  c.note (.byte byte result) node world

/-- Bytes as the events that they are one after another. -/
def receiveAll (now : Nat) : List UInt8 → Chronicle σ → Chronicle σ
  | [], c => c
  | byte :: rest, c => (c.receive now byte).receiveAll now rest

/-- The bytes of a buffer as the events that they are, until it is empty or has been looked
into so many times. -/
def drain (inbox : Place σ ByteQueue) (now : Nat) : Nat → Chronicle σ → Chronicle σ
  | 0, c => c
  | looks + 1, c =>
    match inbox.run ByteQueue.pop c.world with
    | (.error _, world) => { c with world }
    | (.ok byte, world) => ({ c with world }.receive now byte).drain inbox now looks

def send (packet : Packet) (c : Chronicle σ) : Chronicle σ :=
  let (_, node, world) := c.node.send packet c.world
  { c with node, world }

/-- What a move makes of it. A batch and a drain leave the node and the world that receiving a
batch and draining leave, and of a drain that has not come to its end what it has come to. -/
def step : Node.Move σ → Chronicle σ → Chronicle σ
  | .receive now byte, c => c.receive now byte
  | .receiveAll now bytes, c =>
    let (_, node, world) := c.node.receiveAll now bytes c.world
    { c.receiveAll now bytes with node, world }
  | .drain inbox now looks, c =>
    match c.node.drainWithin inbox now looks c.world with
    | some (_, node, world) => { c.drain inbox now looks with node, world }
    | none => c.drain inbox now looks
  | .send packet, c => c.send packet
  | .sendTo destination opCode payload, c =>
    let (_, node, world) := c.node.sendTo destination opCode payload c.world
    { c with node, world }
  | .setHandler handler, c => { c with node := { c.node with handler } }
  | .setSink sink, c => { c with node := { c.node with sink } }
  | .checkIdle now, c =>
    let (answer, node) := c.node.checkIdle now
    c.note (.expiry answer) node c.world
  | .expire, c =>
    let (answer, node) := c.node.expire
    c.note (.expiry answer) node c.world
  | .reset, c => c.note .reset c.node.reset c.world
  | .outside update, c => { c with world := update c.world }

def run (moves : List (Node.Move σ)) (c : Chronicle σ) : Chronicle σ :=
  moves.foldl (fun c move => c.step move) c

theorem receiveAll_eq (now : Nat) (bytes : List UInt8) (c : Chronicle σ) :
    let received := c.node.receiveAll now bytes c.world
    (c.receiveAll now bytes).node = received.2.1 ∧
      (c.receiveAll now bytes).world = received.2.2 := by
  induction bytes generalizing c with
  | nil => exact ⟨rfl, rfl⟩
  | cons byte rest ih => exact ih (c.receive now byte)

/-- A drain that comes to an end leaves the node and the world that the history has. -/
theorem drain_eq {inbox : Place σ ByteQueue} {now looks : Nat} {c : Chronicle σ}
    {result : Except BusError Nat} {n : Node σ} {world : σ}
    (h : c.node.drainWithin inbox now looks c.world = some (result, n, world)) :
    (c.drain inbox now looks).node = n ∧ (c.drain inbox now looks).world = world := by
  induction looks generalizing c result with
  | zero => cases h
  | succ looks ih =>
    generalize hpop : inbox.run ByteQueue.pop c.world = popped
    obtain ⟨cause | byte, world₁⟩ := popped
    · simp only [Node.drainWithin, hpop] at h
      cases h
      simp only [drain, hpop, and_self]
    · simp only [Node.drainWithin, hpop] at h
      simp only [drain, hpop]
      split at h
      · cases h
      · rename_i hrest
        cases h
        exact ih (c := { c with world := world₁ }.receive now byte) hrest

theorem step_receiveAll (now : Nat) (bytes : List UInt8) (c : Chronicle σ) :
    c.step (.receiveAll now bytes) = c.receiveAll now bytes := by
  obtain ⟨hnode, hworld⟩ := c.receiveAll_eq now bytes
  simp only [step, ← hnode, ← hworld]

theorem step_drain (inbox : Place σ ByteQueue) (now looks : Nat) (c : Chronicle σ) :
    c.step (.drain inbox now looks) = c.drain inbox now looks := by
  simp only [step]
  split
  · rename_i hdrained
    obtain ⟨hnode, hworld⟩ := drain_eq hdrained
    simp only [← hnode, ← hworld]
  · rfl

end Chronicle

namespace Node

/-- The node when the frame in progress was dropped for its age. -/
def lapsed (n : Node σ) : Node σ :=
  { n with assembler := n.assembler.reset, counters.idleResets := n.counters.idleResets + 1 }

theorem expire_of_idle {n : Node σ} (h : n.assembler.isIdle = true) : n.expire = (false, n) := by
  simp only [expire, h, ↓reduceIte]

theorem expire_of_busy {n : Node σ} (h : n.assembler.isIdle = false) :
    n.expire = (true, n.lapsed) := by
  simp only [expire, h, Bool.false_eq_true, ↓reduceIte, lapsed]

theorem checkIdle_eq (now : Nat) (n : Node σ) :
    n.checkIdle now = (false, n) ∨ n.checkIdle now = n.expire := by
  unfold checkIdle
  split
  · split
    · exact .inl rfl
    · exact .inr rfl
  · exact .inl rfl

theorem expire_node (n : Node σ) : ∃ assembler idleResets,
    n.expire.2 = { n with assembler, counters := { n.counters with idleResets } } := by
  cases h : n.assembler.isIdle with
  | true =>
    rw [expire_of_idle h]
    exact ⟨n.assembler, n.counters.idleResets, rfl⟩
  | false =>
    rw [expire_of_busy h]
    exact ⟨n.assembler.reset, n.counters.idleResets + 1, rfl⟩

theorem checkIdle_node (now : Nat) (n : Node σ) : ∃ assembler idleResets,
    (n.checkIdle now).2 = { n with assembler, counters := { n.counters with idleResets } } := by
  rcases checkIdle_eq now n with h | h
  · rw [h]
    exact ⟨n.assembler, n.counters.idleResets, rfl⟩
  · rw [h]
    exact expire_node n

/-- Sending counts what was sent and what failed, and nothing else. -/
theorem send_counted (p : Packet) (n : Node σ) (world : σ) :
    ∃ framesSent callbackFailures, (n.send p world).2.1 =
      { n with counters := { n.counters with framesSent, callbackFailures } } := by
  unfold send
  split
  · exact ⟨n.counters.framesSent + 1, n.counters.callbackFailures, rfl⟩
  · split
    · exact ⟨n.counters.framesSent, n.counters.callbackFailures + 1, rfl⟩
    · exact ⟨n.counters.framesSent, n.counters.callbackFailures, rfl⟩

/-- How a node gets from its start to where it is, with the events on the way, whatever the
world around it is at each step. -/
inductive History (start : Node σ) : Node σ → List (Event σ) → Prop where
  | start : History start start []
  | byte {n : Node σ} {events : List (Event σ)} (now : Nat) (byte : UInt8) (world : σ) :
      History start n events →
      History start (n.receive now byte world).2.1 (events ++ [n.received now byte world])
  | send {n : Node σ} {events : List (Event σ)} (framesSent callbackFailures : UInt64) :
      History start n events →
      History start { n with counters := { n.counters with framesSent, callbackFailures } } events
  | handler {n : Node σ} {events : List (Event σ)} (handler : Option (Handler σ)) :
      History start n events → History start { n with handler } events
  | sink {n : Node σ} {events : List (Event σ)} (sink : Option (Sink σ)) :
      History start n events → History start { n with sink } events
  | kept {n : Node σ} {events : List (Event σ)} :
      History start n events → History start n (events ++ [⟨n, .expiry false, n⟩])
  | lapsed {n : Node σ} {events : List (Event σ)} (busy : n.assembler.isIdle = false) :
      History start n events → History start n.lapsed (events ++ [⟨n, .expiry true, n.lapsed⟩])
  | reset {n : Node σ} {events : List (Event σ)} :
      History start n events → History start n.reset (events ++ [⟨n, .reset, n.reset⟩])

theorem History.expire {start n : Node σ} {events : List (Event σ)} (h : History start n events) :
    History start n.expire.2 (events ++ [⟨n, .expiry n.expire.1, n.expire.2⟩]) := by
  cases hidle : n.assembler.isIdle with
  | true =>
    rw [expire_of_idle hidle]
    exact h.kept
  | false =>
    rw [expire_of_busy hidle]
    exact h.lapsed hidle

theorem History.checkIdle {start n : Node σ} {events : List (Event σ)} (h : History start n events)
    (now : Nat) :
    History start (n.checkIdle now).2
      (events ++ [⟨n, .expiry (n.checkIdle now).1, (n.checkIdle now).2⟩]) := by
  rcases checkIdle_eq now n with hcheck | hcheck
  · rw [hcheck]
    exact h.kept
  · rw [hcheck]
    exact h.expire

end Node

namespace Chronicle

def From (start : Node σ) (c : Chronicle σ) : Prop :=
  Node.History start c.node c.events

variable {start : Node σ} {c : Chronicle σ}

theorem From.receive (h : c.From start) (now : Nat) (byte : UInt8) :
    (c.receive now byte).From start :=
  Node.History.byte now byte c.world h

theorem From.receiveAll (h : c.From start) (now : Nat) (bytes : List UInt8) :
    (c.receiveAll now bytes).From start := by
  induction bytes generalizing c with
  | nil => exact h
  | cons byte rest ih => exact ih (h.receive now byte)

theorem From.drain (h : c.From start) (inbox : Place σ ByteQueue) (now looks : Nat) :
    (c.drain inbox now looks).From start := by
  induction looks generalizing c with
  | zero => exact h
  | succ looks ih =>
    simp only [Chronicle.drain]
    split
    · exact h
    · rename_i byte world hpop
      have hpopped : From start { c with world } := h
      exact ih (hpopped.receive now byte)

theorem From.send (h : c.From start) (p : Packet) : (c.send p).From start := by
  obtain ⟨sent, failures, hnode⟩ := c.node.send_counted p c.world
  have hsent := Node.History.send sent failures h
  rw [← hnode] at hsent
  exact hsent

theorem From.step (h : c.From start) (move : Node.Move σ) : (c.step move).From start := by
  cases move with
  | receive now byte => exact h.receive now byte
  | receiveAll now bytes =>
    rw [step_receiveAll]
    exact h.receiveAll now bytes
  | drain inbox now looks =>
    rw [step_drain]
    exact h.drain inbox now looks
  | send p => exact h.send p
  | sendTo destination opCode payload => exact h.send ⟨_, destination, opCode, payload⟩
  | setHandler handler => exact Node.History.handler handler h
  | setSink sink => exact Node.History.sink sink h
  | checkIdle now => exact Node.History.checkIdle h now
  | expire => exact Node.History.expire h
  | reset => exact Node.History.reset h
  | outside update => exact h

theorem From.run (h : c.From start) (moves : List (Node.Move σ)) : (c.run moves).From start := by
  induction moves generalizing c with
  | nil => exact h
  | cons move rest ih => exact ih (h.step move)

theorem from_run (start : Node σ) (world : σ) (moves : List (Node.Move σ)) :
    (run moves ⟨start, world, []⟩).From start := by
  have h : From start ⟨start, world, []⟩ := Node.History.start
  exact h.run moves

end Chronicle

end TwoWire
