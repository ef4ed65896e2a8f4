import TwoWire.Proofs.NodeHistory
import TwoWire.Proofs.CallLog

/-! The counters of transmission. Frames sent are the calls of sinks that succeeded, whether
the node was told to send or its handler sent, and callback failures are the sends and the
bytes that came back with one. -/

namespace TwoWire

variable {ι σ α β : Type}

/-- A counter grows as a count does. -/
def KeepsUp (count count' : Nat) (counter counter' : UInt64) : Prop :=
  ∃ more, count' = count + more ∧ counter' = counter + more.toUInt64

theorem KeepsUp.refl (count : Nat) (counter : UInt64) : KeepsUp count count counter counter :=
  ⟨0, rfl, (UInt64.add_zero counter).symm⟩

theorem KeepsUp.trans {a b c : Nat} {x y z : UInt64} (hxy : KeepsUp a b x y)
    (hyz : KeepsUp b c y z) : KeepsUp a c x z := by
  obtain ⟨m, rfl, rfl⟩ := hxy
  obtain ⟨k, rfl, rfl⟩ := hyz
  refine ⟨m + k, Nat.add_assoc a m k, ?_⟩
  rw [Nat.toUInt64_eq, Nat.toUInt64_eq, Nat.toUInt64_eq, UInt64.ofNat_add, UInt64.add_assoc]

theorem KeepsUp.add_left {a b : Nat} {x y : UInt64} (h : KeepsUp a b x y) (k : Nat) :
    KeepsUp (k + a) (k + b) x y := by
  obtain ⟨more, rfl, rfl⟩ := h
  exact ⟨more, (Nat.add_assoc k a more).symm, rfl⟩

def callbackFails : Except BusError Unit → Bool
  | .ok () => false
  | .error cause => cause.isCallbackFailed

theorem BusError.isCallbackFailed_ofCallback (cause : BusError) :
    cause.ofCallback.isCallbackFailed = true := by
  cases cause <;> rfl

section Frames

variable [DecidableEq ι]

/-- The calls of a node's sinks that succeeded. -/
def accepted (node : ι) (log : List (Callback ι σ)) : Nat :=
  (sunk node log).countP (·.2.toBool)

theorem accepted_handled (node other : ι) (x : Exchange) (arrival : Arrival) (w : Logged ι σ) :
    accepted node (w.note (.handled other x arrival)).log = accepted node w.log := by
  simp [accepted, Logged.note, sunk]

theorem accepted_sink (node : ι) (s : Sink σ) (frame : List UInt8) (w : Logged ι σ) :
    let called := Sink.logged node s frame w
    accepted node called.2.log = accepted node w.log + called.1.toBool.toNat := by
  simp only [Sink.logged]
  generalize s frame w.world = called
  obtain ⟨cause | _, world⟩ := called <;> simp [accepted, Logged.note, sunk, Except.toBool]

theorem accepted_transmit (node : ι) (sink : Option (Sink σ)) (bound : Nat) (p : Packet)
    (w : Logged ι σ) :
    let transmitted := transmit (sink.map (Sink.logged node)) bound p w
    accepted node transmitted.2.log = accepted node w.log + transmitted.1.toBool.toNat := by
  have ht := transmit_transmitted (sink.map (Sink.logged node)) bound p w
  generalize transmit (sink.map (Sink.logged node)) bound p w = t at ht
  cases ht with
  | tooLong | noSink => rfl
  | accepted _ present call | failed _ present call =>
    obtain ⟨s, -, rfl⟩ := Option.map_eq_some_iff.mp present
    have hcalled := accepted_sink node s (Arrival.ofPacket p).bytes w
    rw [call] at hcalled
    exact hcalled

/-- What a reaction counts as sent are the calls of the sink that succeeded meanwhile. -/
theorem Reaction.accepted_run (node : ι) (sink : Option (Sink σ)) (bound : Nat) (r : Reaction σ α)
    (count : Nat) (w : Logged ι σ) :
    let ran := r.logged.run (sink.map (Sink.logged node)) bound count w
    ran.2.1 + accepted node w.log = count + accepted node ran.2.2.log := by
  induction r generalizing count w with
  | done result => rfl
  | look next ih => exact ih w.world count w
  | change update next ih => exact ih count { w with world := update w.world }
  | send p next ih =>
    have ht := accepted_transmit node sink bound p w
    simp only [Reaction.logged, run]
    generalize TwoWire.transmit (sink.map (Sink.logged node)) bound p w = t at ht
    obtain ⟨cause | _, w'⟩ := t
    · have hrest := ih (.error cause) count w'
      simp only [Except.toBool, Bool.toNat_false] at ht hrest ⊢
      omega
    · have hrest := ih (.ok ()) (count + 1) w'
      simp only [Except.toBool, Bool.toNat_true] at ht hrest ⊢
      omega
  | sent next ih => exact ih count count w

namespace Node

theorem keepsUp_send (node : ι) (p : Packet) (n : Node σ) (w : Logged ι σ) :
    let sent := (n.logged node).send p w
    KeepsUp (accepted node w.log) (accepted node sent.2.2.log) (n.logged node).counters.framesSent
      sent.2.1.counters.framesSent := by
  have ht := accepted_transmit node n.sink n.settings.payloadBound.toNat p w
  simp only [send, sink_logged, settings_logged]
  generalize transmit (n.sink.map (Sink.logged node)) _ p w = t at ht
  obtain ⟨cause | _, w'⟩ := t
  · simp only
    split <;> exact ⟨0, ht, (UInt64.add_zero _).symm⟩
  · exact ⟨1, ht, rfl⟩

theorem keepsUp_deliver (node : ι) (arrival : Arrival) (n : Node σ) (w : Logged ι σ) :
    let delivered := (n.logged node).deliver arrival w
    KeepsUp (accepted node w.log) (accepted node delivered.2.2.log)
      (n.logged node).counters.framesSent delivered.2.1.counters.framesSent := by
  cases h : n.accepts arrival with
  | false =>
    rw [deliver_of_refused (n := n.logged node) h]
    exact .refl _ _
  | true =>
    rcases n.handler.eq_none_or_eq_some with hh | ⟨handler, hh⟩
    · rw [deliver_of_unhandled (n := n.logged node) h (by simp [hh])]
      exact .refl _ _
    · have hl : (n.logged node).handler = some (handler.logged node) := by simp [hh]
      let x : Exchange := ⟨n.address, arrival.header.source⟩
      have hran := Reaction.accepted_run node n.sink n.settings.payloadBound.toNat
        (handler x arrival) 0 (w.note (.handled node x arrival))
      rw [deliver_of_handled (n := n.logged node) h hl]
      rw [accepted_handled] at hran
      -- The reaction starts at zero, so its count is what the log has gained.
      refine ⟨((n.logged node).react (handler.logged node) arrival w).2.1, ?_, rfl⟩
      exact ((Nat.zero_add _).symm.trans hran.symm).trans (Nat.add_comm _ _)

theorem keepsUp_receive (node : ι) (now : Nat) (byte : UInt8) (n : Node σ) (w : Logged ι σ) :
    let received := (n.logged node).receive now byte w
    KeepsUp (accepted node w.log) (accepted node received.2.2.log)
      (n.logged node).counters.framesSent received.2.1.counters.framesSent := by
  generalize h : n.assembler.feed byte = fed
  obtain ⟨fault | _ | arrival, a⟩ := fed
  · rw [receive_of_fault (n := n.logged node) h]
    exact .refl _ _
  · rw [receive_of_more (n := n.logged node) h]
    exact .refl _ _
  · rw [receive_of_frame (n := n.logged node) h]
    exact keepsUp_deliver node arrival { n.noted now with assembler := a } w

end Node

end Frames

namespace Node

theorem callbackFailures_send (p : Packet) (n : Node σ) (world : σ) :
    let sent := n.send p world
    sent.2.1.counters.callbackFailures =
      n.counters.callbackFailures + (callbackFails sent.1).toNat.toUInt64 := by
  unfold send
  split
  · exact (UInt64.add_zero _).symm
  · split
    · rename_i hfails
      simp [callbackFails, hfails]
    · rename_i hfails
      simp [callbackFails, hfails]

theorem callbackFailures_deliver (arrival : Arrival) (n : Node σ) (world : σ) :
    let delivered := n.deliver arrival world
    delivered.2.1.counters.callbackFailures =
      n.counters.callbackFailures + (callbackFails delivered.1).toNat.toUInt64 := by
  cases h : n.accepts arrival with
  | false =>
    rw [deliver_of_refused h]
    exact (UInt64.add_zero _).symm
  | true =>
    rcases n.handler.eq_none_or_eq_some with hh | ⟨handler, hh⟩
    · rw [deliver_of_unhandled h hh]
      exact (UInt64.add_zero _).symm
    · rw [deliver_of_handled h hh]
      generalize n.react handler arrival world = reacted
      obtain ⟨cause | _, sent, world'⟩ := reacted
      · have hfails : callbackFails (.error cause.ofCallback) = true :=
          cause.isCallbackFailed_ofCallback
        change n.counters.callbackFailures + 1 = n.counters.callbackFailures +
          (callbackFails (.error cause.ofCallback)).toNat.toUInt64
        rw [hfails]
        rfl
      · exact (UInt64.add_zero _).symm

theorem callbackFailures_receive (now : Nat) (byte : UInt8) (n : Node σ) (world : σ) :
    let received := n.receive now byte world
    received.2.1.counters.callbackFailures =
      n.counters.callbackFailures + (callbackFails received.1).toNat.toUInt64 := by
  generalize h : n.assembler.feed byte = fed
  obtain ⟨fault | _ | arrival, a⟩ := fed
  · rw [receive_of_fault h]
    exact (UInt64.add_zero _).symm
  · rw [receive_of_more h]
    exact (UInt64.add_zero _).symm
  · rw [receive_of_frame h]
    exact callbackFailures_deliver arrival { n.noted now with assembler := a } world

/-- A send that a bound or a missing sink stands in the way of leaves everything as it is. -/
theorem send_refused (p : Packet) (n : Node σ) (world : σ)
    (h : (∃ fault, (n.send p world).1 = .error (.badParam fault)) ∨
      (n.send p world).1 = .error .noSink) : (n.send p world).2 = (n, world) := by
  have ht := transmit_transmitted n.sink n.settings.payloadBound.toNat p world
  simp only [send] at h ⊢
  generalize transmit n.sink n.settings.payloadBound.toNat p world = t at ht h
  cases ht with
  | tooLong | noSink => rfl
  | accepted => simp at h
  | @failed _ _ cause =>
    have hfailed := cause.isCallbackFailed_ofCallback
    simp only [hfailed, ↓reduceIte, Except.error.injEq] at h
    rcases h with ⟨fault, h⟩ | h
    · rw [h] at hfailed
      cases hfailed
    · rw [h] at hfailed
      cases hfailed

/-- Whatever a reaction has done before it asks how many frames it has sent, it is told how many
calls of the sink have succeeded since the handler was called. -/
theorem react_asking {n : Node σ} {handler : Handler σ} {arrival : Arrival} {world : σ}
    {before : Reaction σ α} {after : α → Reaction σ (Except BusError Unit)}
    {next : Nat → Reaction σ (Except BusError Unit)}
    (h : handler ⟨n.address, arrival.header.source⟩ arrival = before.bind after) :
    let bound := n.settings.payloadBound.toNat
    let first := before.logged.run (n.sink.map (Sink.logged ())) bound 0 ⟨world, []⟩
    let sends := accepted () first.2.2.log
    after first.1 = .sent next →
      n.react handler arrival world = (next sends).run n.sink bound sends first.2.2.world := by
  intro bound first sends hnext
  obtain ⟨hresult, hcount, hworld⟩ := before.run_logged () n.sink bound 0 ⟨world, []⟩
  have hsends : first.2.1 = sends := by
    have hran := before.accepted_run () n.sink bound 0 ⟨world, []⟩
    exact hran.trans (Nat.zero_add sends)
  have hplain : before.run n.sink bound 0 world = (first.1, sends, first.2.2.world) :=
    Prod.ext hresult.symm (Prod.ext (hcount.symm.trans hsends) hworld.symm)
  rw [react, h, Reaction.run_bind, hplain]
  simp only [hnext, Reaction.run]
  rfl

end Node

def Event.callbackFailed (e : Event σ) : Bool :=
  match e.occurrence with
  | .byte _ result => callbackFails result
  | _ => false

namespace Node.Move

/-- The move beside a log. -/
def logged (node : ι) : Node.Move σ → Node.Move (Logged ι σ)
  | receive now byte => receive now byte
  | receiveAll now bytes => receiveAll now bytes
  | drain inbox now looks => drain (Logged.place.within inbox) now looks
  | send p => send p
  | sendTo destination opCode payload => sendTo destination opCode payload
  | setHandler handler => setHandler (handler.map (Handler.logged node))
  | setSink sink => setSink (sink.map (Sink.logged node))
  | checkIdle now => checkIdle now
  | expire => expire
  | reset => reset
  | outside update => outside fun w => { w with world := update w.world }

/-- What comes back from a move that sends. -/
def answer? (c : Chronicle σ) : Node.Move σ → Option (Except BusError Unit)
  | send p => some (c.node.send p c.world).1
  | sendTo destination opCode payload =>
    some (c.node.sendTo destination opCode payload c.world).1
  | _ => none

end Node.Move

namespace Chronicle

/-- What comes back from the moves that send, each made where the ones before it lead. -/
def answers : List (Node.Move σ) → Chronicle σ → List (Except BusError Unit)
  | [], _ => []
  | move :: rest, c => (move.answer? c).toList ++ (c.step move).answers rest

def failedBytes (c : Chronicle σ) : Nat :=
  c.events.countP Event.callbackFailed

theorem failedBytes_note (occurrence : Occurrence) (n : Node σ) (world : σ) (c : Chronicle σ) :
    (c.note occurrence n world).failedBytes =
      c.failedBytes + (Event.callbackFailed ⟨c.node, occurrence, n⟩).toNat := by
  rw [failedBytes, note, List.countP_append, List.countP_singleton, failedBytes]
  cases Event.callbackFailed ⟨c.node, occurrence, n⟩ <;> rfl

/-- The failures of sends among some steps, of which there are so many, and of bytes are
counted. -/
def Charges (sends : Nat) (c c' : Chronicle σ) : Prop :=
  KeepsUp c.failedBytes (sends + c'.failedBytes) c.node.counters.callbackFailures
    c'.node.counters.callbackFailures

theorem Charges.trans {m k : Nat} {c₁ c₂ c₃ : Chronicle σ} (h₁₂ : Charges m c₁ c₂)
    (h₂₃ : Charges k c₂ c₃) : Charges (m + k) c₁ c₃ := by
  have hlater := h₂₃.add_left m
  rw [← Nat.add_assoc] at hlater
  exact KeepsUp.trans h₁₂ hlater

theorem Charges.of_eq {c c' : Chronicle σ} (hbytes : c'.failedBytes = c.failedBytes)
    (hcount : c'.node.counters.callbackFailures = c.node.counters.callbackFailures) :
    Charges 0 c c' := by
  rw [Charges, Nat.zero_add, hbytes, hcount]
  exact .refl _ _

theorem charges_receive (now : Nat) (byte : UInt8) (c : Chronicle σ) :
    Charges 0 c (c.receive now byte) := by
  have hbytes := failedBytes_note (.byte byte (c.node.receive now byte c.world).1)
    (c.node.receive now byte c.world).2.1 (c.node.receive now byte c.world).2.2 c
  have hcount := c.node.callbackFailures_receive now byte c.world
  exact ⟨_, (Nat.zero_add _).trans hbytes, hcount⟩

theorem charges_receiveAll (now : Nat) (bytes : List UInt8) (c : Chronicle σ) :
    Charges 0 c (c.receiveAll now bytes) := by
  induction bytes generalizing c with
  | nil => exact .of_eq rfl rfl
  | cons byte rest ih => exact (charges_receive now byte c).trans (ih (c.receive now byte))

theorem charges_drain (inbox : Place σ ByteQueue) (now looks : Nat) (c : Chronicle σ) :
    Charges 0 c (c.drain inbox now looks) := by
  induction looks generalizing c with
  | zero => exact .of_eq rfl rfl
  | succ looks ih =>
    simp only [drain]
    split
    · exact .of_eq rfl rfl
    · rename_i byte world hpop
      have hbyte : Charges 0 c (receive now byte { c with world }) :=
        charges_receive now byte { c with world }
      exact hbyte.trans (ih (receive now byte { c with world }))

theorem charges_send (p : Packet) (c : Chronicle σ) :
    Charges (callbackFails (c.node.send p c.world).1).toNat c (c.send p) :=
  ⟨_, Nat.add_comm _ _, c.node.callbackFailures_send p c.world⟩

theorem countP_some (result : Except BusError Unit) :
    (some result).toList.countP callbackFails = (callbackFails result).toNat := by
  rw [Option.toList_some, List.countP_singleton]
  cases callbackFails result <;> rfl

theorem charges_expiry (answer : Bool) (assembler : Assembler) (idleResets : UInt64)
    (c : Chronicle σ) :
    let n : Node σ := { c.node with assembler, counters := { c.node.counters with idleResets } }
    Charges 0 c (c.note (.expiry answer) n c.world) :=
  .of_eq (failedBytes_note (.expiry answer) _ c.world c) rfl

theorem charges_step (move : Node.Move σ) (c : Chronicle σ) :
    Charges ((move.answer? c).toList.countP callbackFails) c (c.step move) := by
  cases move with
  | receive now byte => exact charges_receive now byte c
  | receiveAll now bytes =>
    rw [step_receiveAll]
    exact charges_receiveAll now bytes c
  | drain inbox now looks =>
    rw [step_drain]
    exact charges_drain inbox now looks c
  | send p =>
    rw [Node.Move.answer?, countP_some]
    exact charges_send p c
  | sendTo destination opCode payload =>
    rw [Node.Move.answer?, countP_some]
    exact charges_send ⟨c.node.address, destination, opCode, payload⟩ c
  | setHandler handler => exact .of_eq rfl rfl
  | setSink sink => exact .of_eq rfl rfl
  | checkIdle now =>
    obtain ⟨assembler, idleResets, hnode⟩ := c.node.checkIdle_node now
    simp only [step, hnode]
    exact charges_expiry (c.node.checkIdle now).1 assembler idleResets c
  | expire =>
    obtain ⟨assembler, idleResets, hnode⟩ := c.node.expire_node
    simp only [step, hnode]
    exact charges_expiry c.node.expire.1 assembler idleResets c
  | reset => exact .of_eq (failedBytes_note .reset c.node.reset c.world c) rfl
  | outside update => exact .of_eq rfl rfl

theorem charges_run (moves : List (Node.Move σ)) (c : Chronicle σ) :
    Charges ((c.answers moves).countP callbackFails) c (c.run moves) := by
  induction moves generalizing c with
  | nil => exact .of_eq rfl rfl
  | cons move rest ih =>
    rw [answers, List.countP_append]
    exact (charges_step move c).trans (ih (c.step move))

/-- A history with logged callbacks is that of the same node in the same world. -/
structure Logs (node : ι) (logged : Chronicle (Logged ι σ)) (c : Chronicle σ) : Prop where
  node : logged.node = c.node.logged node
  world : logged.world.world = c.world

/-- The calls of sinks that succeeded are counted as frames sent. -/
def Sends [DecidableEq ι] (node : ι) (c c' : Chronicle (Logged ι σ)) : Prop :=
  KeepsUp (accepted node c.world.log) (accepted node c'.world.log) c.node.counters.framesSent
    c'.node.counters.framesSent

section Logged

variable [DecidableEq ι] {node : ι} {logged : Chronicle (Logged ι σ)} {c : Chronicle σ}

theorem Sends.of_eq {c c' : Chronicle (Logged ι σ)} (hlog : c'.world.log = c.world.log)
    (hcount : c'.node.counters.framesSent = c.node.counters.framesSent) : Sends node c c' := by
  rw [Sends, hlog, hcount]
  exact .refl _ _

theorem Logs.receive (h : Logs node logged c) (now : Nat) (byte : UInt8) :
    Logs node (logged.receive now byte) (c.receive now byte) ∧
      Sends node logged (logged.receive now byte) := by
  have herases := Node.erases_receive node now byte c.node logged.world
  have hsends := Node.keepsUp_receive node now byte c.node logged.world
  rw [← h.node] at hsends
  rw [← h.node, h.world] at herases
  exact ⟨⟨herases.node, herases.world⟩, hsends⟩

theorem Logs.receiveAll (h : Logs node logged c) (now : Nat) (bytes : List UInt8) :
    Logs node (logged.receiveAll now bytes) (c.receiveAll now bytes) ∧
      Sends node logged (logged.receiveAll now bytes) := by
  induction bytes generalizing logged c with
  | nil => exact ⟨h, .of_eq rfl rfl⟩
  | cons byte rest ih =>
    obtain ⟨hfirst, hbyte⟩ := h.receive now byte
    obtain ⟨hlast, hrest⟩ := ih hfirst
    exact ⟨hlast, KeepsUp.trans hbyte hrest⟩

theorem Logs.drain (h : Logs node logged c) (inbox : Place σ ByteQueue) (now looks : Nat) :
    Logs node (logged.drain (Logged.place.within inbox) now looks) (c.drain inbox now looks) ∧
      Sends node logged (logged.drain (Logged.place.within inbox) now looks) := by
  induction looks generalizing logged c with
  | zero => exact ⟨h, .of_eq rfl rfl⟩
  | succ looks ih =>
    -- Looking into the buffer is no call, so the log stays as it is.
    have hpop : (Logged.place.within inbox).run ByteQueue.pop logged.world =
        ((inbox.run ByteQueue.pop c.world).1,
          { logged.world with world := (inbox.run ByteQueue.pop c.world).2 }) := by
      rw [← h.world]
      rfl
    simp only [Chronicle.drain, hpop]
    generalize inbox.run ByteQueue.pop c.world = popped
    obtain ⟨cause | byte, world⟩ := popped
    · exact ⟨⟨h.node, rfl⟩, .of_eq rfl rfl⟩
    · have hpopped : Logs node { logged with world := { logged.world with world } }
          { c with world } := ⟨h.node, rfl⟩
      obtain ⟨hfirst, hbyte⟩ := hpopped.receive now byte
      obtain ⟨hlast, hrest⟩ := ih hfirst
      exact ⟨hlast, KeepsUp.trans hbyte hrest⟩

theorem Logs.send (h : Logs node logged c) (p : Packet) :
    Logs node (logged.send p) (c.send p) ∧ Sends node logged (logged.send p) := by
  have herases := Node.erases_send node p c.node logged.world
  have hsends := Node.keepsUp_send node p c.node logged.world
  rw [← h.node] at hsends
  rw [← h.node, h.world] at herases
  exact ⟨⟨herases.node, herases.world⟩, hsends⟩

theorem Logs.expiry (h : Logs node logged c) (answer : Bool) (assembler : Assembler)
    (idleResets : UInt64) :
    let n : Node σ := { c.node with assembler, counters := { c.node.counters with idleResets } }
    let noted := logged.note (.expiry answer) (n.logged node) logged.world
    Logs node noted (c.note (.expiry answer) n c.world) ∧ Sends node logged noted := by
  refine ⟨⟨rfl, h.world⟩, .of_eq rfl ?_⟩
  rw [h.node]
  rfl

theorem Logs.step (h : Logs node logged c) (move : Node.Move σ) :
    Logs node (logged.step (move.logged node)) (c.step move) ∧
      Sends node logged (logged.step (move.logged node)) := by
  cases move with
  | receive now byte => exact h.receive now byte
  | receiveAll now bytes =>
    rw [Node.Move.logged, step_receiveAll, step_receiveAll]
    exact h.receiveAll now bytes
  | drain inbox now looks =>
    rw [Node.Move.logged, step_drain, step_drain]
    exact h.drain inbox now looks
  | send p => exact h.send p
  | sendTo destination opCode payload =>
    have haddress : logged.node.address = c.node.address := by
      rw [h.node]
      rfl
    have hstep : logged.step (.sendTo destination opCode payload) =
        logged.send ⟨c.node.address, destination, opCode, payload⟩ := by
      rw [← haddress]
      rfl
    rw [Node.Move.logged, hstep]
    exact h.send ⟨c.node.address, destination, opCode, payload⟩
  | setHandler handler =>
    refine ⟨⟨?_, h.world⟩, .of_eq rfl rfl⟩
    simp only [Chronicle.step, Node.Move.logged, h.node]
    rfl
  | setSink sink =>
    refine ⟨⟨?_, h.world⟩, .of_eq rfl rfl⟩
    simp only [Chronicle.step, Node.Move.logged, h.node]
    rfl
  | checkIdle now =>
    obtain ⟨assembler, idleResets, hnode⟩ := c.node.checkIdle_node now
    simp only [Chronicle.step, Node.Move.logged, h.node, Node.checkIdle_logged, hnode]
    exact h.expiry (c.node.checkIdle now).1 assembler idleResets
  | expire =>
    obtain ⟨assembler, idleResets, hnode⟩ := c.node.expire_node
    simp only [Chronicle.step, Node.Move.logged, h.node, Node.expire_logged, hnode]
    exact h.expiry c.node.expire.1 assembler idleResets
  | reset =>
    refine ⟨⟨?_, h.world⟩, .of_eq rfl rfl⟩
    simp only [Chronicle.step, Node.Move.logged, note, h.node]
    rfl
  | outside update =>
    refine ⟨⟨h.node, ?_⟩, .of_eq rfl rfl⟩
    simp only [Chronicle.step, Node.Move.logged, h.world]

theorem Logs.run (h : Logs node logged c) (moves : List (Node.Move σ)) :
    Logs node (logged.run (moves.map (Node.Move.logged node))) (c.run moves) ∧
      Sends node logged (logged.run (moves.map (Node.Move.logged node))) := by
  induction moves generalizing logged c with
  | nil => exact ⟨h, .of_eq rfl rfl⟩
  | cons move rest ih =>
    obtain ⟨hfirst, hmove⟩ := h.step move
    obtain ⟨hlast, hrest⟩ := ih hfirst
    exact ⟨hlast, KeepsUp.trans hmove hrest⟩

end Logged

/-- Over any run the frames sent are the calls of sinks that succeeded, of sinks long replaced
and for handlers that failed in the end as well, and the callback failures are the sends and the
single bytes that came back with one. A send that is refused changes nothing, and what a handler
is told of the frames it has sent are the calls of the sink that succeeded since it was called. -/
theorem transmissions_accounted (start : Node σ) (world : σ) (moves : List (Node.Move σ)) :
    let c := run moves ⟨start, world, []⟩
    let logged := run (moves.map (Node.Move.logged ())) ⟨start.logged (), ⟨world, []⟩, []⟩
    (logged.node = c.node.logged () ∧ logged.world.world = c.world) ∧
    c.node.counters.framesSent =
      start.counters.framesSent + (accepted () logged.world.log).toUInt64 ∧
    c.node.counters.callbackFailures = start.counters.callbackFailures +
      ((answers moves ⟨start, world, []⟩).countP callbackFails +
        c.events.countP Event.callbackFailed).toUInt64 ∧
    (∀ p, (∃ fault, (c.node.send p c.world).1 = .error (.badParam fault)) ∨
        (c.node.send p c.world).1 = .error .noSink →
      (c.node.send p c.world).2 = (c.node, c.world)) ∧
    ∀ (handler : Handler σ) arrival (α : Type) (before : Reaction σ α) after next,
      handler ⟨c.node.address, arrival.header.source⟩ arrival = before.bind after →
      let bound := c.node.settings.payloadBound.toNat
      let first := before.logged.run (c.node.sink.map (Sink.logged ())) bound 0 ⟨c.world, []⟩
      let sends := accepted () first.2.2.log
      after first.1 = .sent next →
        c.node.react handler arrival c.world =
          (next sends).run c.node.sink bound sends first.2.2.world := by
  intro c logged
  have hstart : Logs () ⟨start.logged (), ⟨world, []⟩, []⟩ ⟨start, world, []⟩ := ⟨rfl, rfl⟩
  obtain ⟨hlogs, more, hlog, hsent⟩ := hstart.run moves
  obtain ⟨failures, hfailures, hcount⟩ := charges_run moves ⟨start, world, []⟩
  refine ⟨⟨hlogs.node, hlogs.world⟩, ?_, ?_, fun p => c.node.send_refused p c.world,
    fun handler arrival α before after next => c.node.react_asking⟩
  · have hmore : accepted () logged.world.log = more := hlog.trans (Nat.zero_add more)
    rw [hlogs.node] at hsent
    rw [hmore]
    exact hsent
  · rw [hcount]
    rw [failedBytes, failedBytes, List.countP_nil, Nat.zero_add] at hfailures
    rw [hfailures]

/-- Sends twice, whatever comes of it, and then fails or tells how many were sent. -/
def insistent : Handler Nat := fun x arrival =>
  ((Reaction.reply x 1 []).bind fun _ => Reaction.reply x 2 []).bind fun _ =>
    .sent fun sent =>
      if arrival.header.opCode = 9 then .done (.error .unpackFailed)
      else Reaction.reply x 3 [sent.toUInt8]

def flakySink : Sink Nat := fun _ calls =>
  (if calls % 2 = 0 then .ok () else .error .queueFull, calls + 1)

/-- A handler that fails after it has sent, a sink that fails always and is replaced, and no
sink at all. -/
def mixedSends : List (Node.Move Nat) :=
  [.receiveAll 0 [5, 2, 9, 0], .send ⟨2, 1, 7, []⟩,
    .setSink (some fun _ calls => (.error .channelClosed, calls + 1)), .sendTo 1 7 [],
    .receiveAll 1 [5, 2, 3, 0], .setSink none, .send ⟨2, 1, 7, []⟩, .setSink (some flakySink)]

theorem transmissions_accounted_mixed :
    let start : Node Nat :=
      { address := 2, settings := { payloadBound := 2 }, assembler := .withBound 2
        handler := some insistent, sink := some flakySink }
    let c := run mixedSends ⟨start, 0, []⟩
    let p : Packet := ⟨2, 1, 7, [1, 2, 3]⟩
    let arrival : Arrival := ⟨⟨5, 2, 4, 0⟩, []⟩
    c.node.counters.framesSent = 2 ∧ c.node.counters.callbackFailures = 3 ∧
      (∃ fault, (c.node.send p c.world).1 = .error (.badParam fault)) ∧
      (c.node.send p c.world).2 = (c.node, c.world) ∧ c.world = 7 ∧
      c.node.react insistent arrival c.world =
        (Reaction.reply ⟨2, 5⟩ 3 [1]).run (some flakySink) 2 1 9 := by
  intro start
  obtain ⟨-, hsent, hfailed, hrefused, hasks⟩ := transmissions_accounted start 0 mixedSends
  have htaken : accepted () (run (mixedSends.map (Node.Move.logged ()))
      ⟨start.logged (), ⟨0, []⟩, []⟩).world.log = 2 := by decide +kernel
  have hfailures : (answers mixedSends ⟨start, 0, []⟩).countP callbackFails +
      (run mixedSends ⟨start, 0, []⟩).events.countP Event.callbackFailed = 3 := by decide +kernel
  rw [htaken] at hsent
  rw [hfailures] at hfailed
  have haddress : (run mixedSends ⟨start, 0, []⟩).node.address = 2 := by decide +kernel
  have hbound : (run mixedSends ⟨start, 0, []⟩).node.settings.payloadBound.toNat = 2 := by
    decide +kernel
  have hsink : (run mixedSends ⟨start, 0, []⟩).node.sink = some flakySink := rfl
  have hworld : (run mixedSends ⟨start, 0, []⟩).world = 7 := by decide +kernel
  clear htaken hfailures
  -- What the run has come to is known by now, and it is not computed again.
  generalize run mixedSends ⟨start, 0, []⟩ = c at *
  intro c p arrival
  have habove : min c.node.settings.payloadBound.toNat payloadLimit < p.payload.length := by
    rw [hbound]
    decide
  have hresult : ∃ fault, (c.node.send p c.world).1 = .error (.badParam fault) := by
    simp only [Node.send, transmit, Packet.frameInto_of_lt habove]
    exact ⟨_, rfl⟩
  refine ⟨hsent, hfailed, hresult, hrefused p (.inl hresult), hworld, ?_⟩
  simp only [haddress, hbound, hsink, hworld] at hasks
  let twice : Reaction Nat (Except BusError Unit) :=
    (Reaction.reply ⟨2, 5⟩ 1 []).bind fun _ => Reaction.reply ⟨2, 5⟩ 2 []
  let first := twice.logged.run (some (Sink.logged () flakySink)) 2 0 ⟨7, []⟩
  have hsends : accepted () first.2.2.log = 1 := by decide +kernel
  have hafter : first.2.2.world = 9 := by decide +kernel
  have hreact : c.node.react insistent arrival 7 =
      (Reaction.reply ⟨2, 5⟩ 3 [(accepted () first.2.2.log).toUInt8]).run (some flakySink) 2
        (accepted () first.2.2.log) first.2.2.world :=
    hasks insistent arrival _ twice _ (fun sent => Reaction.reply ⟨2, 5⟩ 3 [sent.toUInt8]) rfl rfl
  rw [hsends, hafter] at hreact
  rw [show c.world = 7 from hworld]
  exact hreact

end Chronicle

end TwoWire
