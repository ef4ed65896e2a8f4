import TwoWire.Node
import TwoWire.Proofs.StreamReading
import TwoWire.Proofs.Transmission

/-! What receiving a byte comes to, and receiving many. Whatever handlers and sinks do,
the frame in progress goes on exactly as the assembler alone takes it. -/

namespace TwoWire

variable {σ : Type}

def Counters.dispatched (result : Except BusError Unit) (sent : Nat) (c : Counters) : Counters :=
  { c with
    framesSent := c.framesSent + sent.toUInt64
    framesDispatched := c.framesDispatched + 1
    callbackFailures := match result with
      | .ok () => c.callbackFailures
      | .error _ => c.callbackFailures + 1 }

theorem Settings.bound_of_check {settings : Settings} (h : settings.check = .ok ()) :
    0 < settings.payloadBound.toNat ∧ settings.payloadBound.toNat ≤ payloadLimit := by
  unfold check at h
  split at h
  · cases h
  · rename_i hbound
    obtain ⟨hzero, hle⟩ := not_or.mp hbound
    have hpos : settings.payloadBound.toNat ≠ 0 := fun he => hzero (UInt64.toNat_inj.mp he)
    omega

namespace Node

def accepts (n : Node σ) (arrival : Arrival) : Bool :=
  n.settings.filter.accepts arrival.header.destination n.address n.settings.broadcast

def call (n : Node σ) (arrival : Arrival) : Exchange × Arrival :=
  (⟨n.address, arrival.header.source⟩, arrival)

/-- What handling a frame comes to: the result, the frames sent and the world. -/
def react (handler : Handler σ) (arrival : Arrival) (n : Node σ) (world : σ) :
    Except BusError Unit × Nat × σ :=
  (handler ⟨n.address, arrival.header.source⟩ arrival).run n.sink
    n.settings.payloadBound.toNat 0 world

/-- The node when a byte has come that is not looked at yet. -/
def noted (now : Nat) (n : Node σ) : Node σ :=
  { n with
    counters.bytesReceived := n.counters.bytesReceived + 1
    lastByte := if n.settings.idleTimeout.isSome then some now else n.lastByte }

theorem deliver_of_refused {n : Node σ} {arrival : Arrival} (h : n.accepts arrival = false)
    (world : σ) :
    n.deliver arrival world =
      (.ok (), { n with counters.framesFiltered := n.counters.framesFiltered + 1 }, world) := by
  rw [accepts] at h
  simp [deliver, h]

theorem deliver_of_unhandled {n : Node σ} {arrival : Arrival} (h : n.accepts arrival = true)
    (missing : n.handler = none) (world : σ) :
    n.deliver arrival world =
      (.ok (), { n with counters.framesUnhandled := n.counters.framesUnhandled + 1 }, world) := by
  rw [accepts] at h
  simp [deliver, h, missing]

theorem deliver_of_handled {n : Node σ} {arrival : Arrival} {handler : Handler σ}
    (h : n.accepts arrival = true) (present : n.handler = some handler) (world : σ) :
    n.deliver arrival world =
      let reacted := n.react handler arrival world
      (reacted.1.mapError BusError.ofCallback,
        { n with counters := n.counters.dispatched reacted.1 reacted.2.1 }, reacted.2.2) := by
  rw [accepts] at h
  simp only [deliver, h, present, Bool.not_true, Bool.false_eq_true, ↓reduceIte, react]
  generalize Reaction.run n.sink _ _ 0 world = reacted
  obtain ⟨cause | _, sent, world'⟩ := reacted <;> rfl

theorem deliver_node (arrival : Arrival) (n : Node σ) (world : σ) :
    ∃ counters, (n.deliver arrival world).2.1 = { n with counters } ∧
      counters.lengthErrors = n.counters.lengthErrors := by
  cases h : n.accepts arrival with
  | false =>
    rw [deliver_of_refused h]
    exact ⟨_, rfl, rfl⟩
  | true =>
    rcases n.handler.eq_none_or_eq_some with hh | ⟨handler, hh⟩
    · rw [deliver_of_unhandled h hh]
      exact ⟨_, rfl, rfl⟩
    · rw [deliver_of_handled h hh]
      exact ⟨_, rfl, rfl⟩

theorem receive_of_more {n : Node σ} {byte : UInt8} {a : Assembler}
    (h : n.assembler.feed byte = (.ok none, a)) (now : Nat) (world : σ) :
    n.receive now byte world = (.ok (), { n.noted now with assembler := a }, world) := by
  simp [receive, noted, h]

theorem receive_of_fault {n : Node σ} {byte : UInt8} {a : Assembler} {fault : ParamFault}
    (h : n.assembler.feed byte = (.error fault, a)) (now : Nat) (world : σ) :
    n.receive now byte world =
      (.error (.badParam fault),
        { n.noted now with
          assembler := a
          counters.lengthErrors := n.counters.lengthErrors + 1 }, world) := by
  simp [receive, noted, h]

theorem receive_of_frame {n : Node σ} {byte : UInt8} {a : Assembler} {arrival : Arrival}
    (h : n.assembler.feed byte = (.ok (some arrival), a)) (now : Nat) (world : σ) :
    n.receive now byte world =
      Node.deliver arrival { n.noted now with assembler := a } world := by
  simp [receive, noted, h]

/-- Receiving a byte leaves address, settings, handler and sink alone, and the frame in
progress is what the assembler makes of it. -/
theorem receive_node (now : Nat) (byte : UInt8) (n : Node σ) (world : σ) :
    ∃ counters lastByte, (n.receive now byte world).2.1 =
      { n with counters, lastByte, assembler := (n.assembler.feed byte).2 } := by
  generalize h : n.assembler.feed byte = fed
  obtain ⟨fault | _ | arrival, a⟩ := fed
  · rw [receive_of_fault h]
    exact ⟨_, _, rfl⟩
  · rw [receive_of_more h]
    exact ⟨_, _, rfl⟩
  · obtain ⟨counters, hnode, -⟩ := deliver_node arrival { n.noted now with assembler := a } world
    rw [receive_of_frame h, hnode]
    exact ⟨counters, _, rfl⟩

/-- Receives bytes one after another, each with its time. Gives the result of each. -/
def receiveEach : List (Nat × UInt8) → Node σ → σ → List (Except BusError Unit) × Node σ × σ
  | [], n, world => ([], n, world)
  | (now, byte) :: rest, n, world =>
    let (result, n, world) := n.receive now byte world
    let (results, n, world) := n.receiveEach rest world
    (result :: results, n, world)

def receiveChunks : List (Nat × List UInt8) → Node σ → σ → List (Except BusError Unit) × Node σ × σ
  | [], n, world => ([], n, world)
  | (now, bytes) :: rest, n, world =>
    let (result, n, world) := n.receiveAll now bytes world
    let (results, n, world) := n.receiveChunks rest world
    (result :: results, n, world)

def stamped (chunks : List (Nat × List UInt8)) : List (Nat × UInt8) :=
  chunks.flatMap fun (now, bytes) => bytes.map (now, ·)

theorem receiveEach_append (xs ys : List (Nat × UInt8)) (n : Node σ) (world : σ) :
    n.receiveEach (xs ++ ys) world =
      let first := n.receiveEach xs world
      let second := first.2.1.receiveEach ys first.2.2
      (first.1 ++ second.1, second.2) := by
  induction xs generalizing n world with
  | nil => rfl
  | cons x rest ih => simp [receiveEach, ih]

theorem receiveEach_node (stream : List (Nat × UInt8)) (n : Node σ) (world : σ) :
    ∃ counters lastByte, (n.receiveEach stream world).2.1 =
      { n with counters, lastByte, assembler := (n.assembler.feedAll (stream.map (·.2))).2 } := by
  induction stream generalizing n world with
  | nil => exact ⟨n.counters, n.lastByte, rfl⟩
  | cons x rest ih =>
    obtain ⟨now, byte⟩ := x
    obtain ⟨counters, lastByte, hnode⟩ := receive_node now byte n world
    obtain ⟨counters', lastByte', hrest⟩ :=
      ih (n.receive now byte world).2.1 (n.receive now byte world).2.2
    refine ⟨counters', lastByte', ?_⟩
    simp only [receiveEach]
    rw [hrest, hnode]
    rfl

theorem receiveAll_eq (now : Nat) (bytes : List UInt8) (n : Node σ) (world : σ) :
    n.receiveAll now bytes world =
      let each := n.receiveEach (bytes.map (now, ·)) world
      (each.1.foldr firstFailure (.ok ()), each.2) := by
  induction bytes generalizing n world with
  | nil => rfl
  | cons byte rest ih => simp [receiveAll, receiveEach, ih]

theorem foldr_firstFailure_of_ok {results : List (Except BusError Unit)}
    (h : ∀ result ∈ results, result = .ok ()) : results.foldr firstFailure (.ok ()) = .ok () := by
  induction results with
  | nil => rfl
  | cons result rest ih =>
    rw [List.foldr_cons, ih fun r hr => h r (List.mem_cons_of_mem _ hr), h result List.mem_cons_self]
    rfl

/-- However a stream is cut into chunks, it is received as its bytes are. -/
theorem receiveChunks_eq (chunks : List (Nat × List UInt8)) (n : Node σ) (world : σ) :
    (n.receiveChunks chunks world).2 = (n.receiveEach (stamped chunks) world).2 := by
  induction chunks generalizing n world with
  | nil => rfl
  | cons chunk rest ih =>
    obtain ⟨now, bytes⟩ := chunk
    simp only [receiveChunks, stamped, List.flatMap_cons, receiveEach_append, receiveAll_eq]
    exact ih _ _

theorem receiveChunks_ok {chunks : List (Nat × List UInt8)} {n : Node σ} {world : σ}
    (h : ∀ result ∈ (n.receiveEach (stamped chunks) world).1, result = .ok ()) :
    (n.receiveChunks chunks world).1 = List.replicate chunks.length (.ok ()) := by
  induction chunks generalizing n world with
  | nil => rfl
  | cons chunk rest ih =>
    obtain ⟨now, bytes⟩ := chunk
    simp only [stamped, List.flatMap_cons, receiveEach_append, List.mem_append] at h
    simp only [receiveChunks, receiveAll_eq, List.length_cons, List.replicate_succ]
    rw [foldr_firstFailure_of_ok fun r hr => h r (.inl hr), ih fun r hr => h r (.inr hr)]

/-- The result of a byte with which the handler, if called, does not fail. -/
def resultOf : Except ParamFault (Option Arrival) → Except BusError Unit
  | .ok _ => .ok ()
  | .error fault => .error (.badParam fault)

/-- The handler of a node does not fail on frames within a bound. -/
def Willing (bound : Nat) (n : Node σ) : Prop :=
  ∀ handler, n.handler = some handler → ∀ arrival : Arrival, arrival.Fits bound →
    ∀ world, (n.react handler arrival world).1 = .ok ()

theorem deliver_ok {n : Node σ} {bound : Nat} (h : n.Willing bound) {arrival : Arrival}
    (fits : arrival.Fits bound) (world : σ) : (n.deliver arrival world).1 = .ok () := by
  cases ha : n.accepts arrival with
  | false => rw [deliver_of_refused ha]
  | true =>
    rcases n.handler.eq_none_or_eq_some with hh | ⟨handler, hh⟩
    · rw [deliver_of_unhandled ha hh]
    · simp only [deliver_of_handled ha hh, h handler hh arrival fits world]
      rfl

theorem receive_result {n : Node σ} (hs : n.assembler.Sound) (h : n.Willing n.assembler.bound)
    (now : Nat) (byte : UInt8) (world : σ) :
    (n.receive now byte world).1 = resultOf (n.assembler.feed byte).1 := by
  have hfed := hs.feed byte
  generalize hf : n.assembler.feed byte = fed at hfed
  cases hfed with
  | more =>
    rw [receive_of_more hf]
    rfl
  | refused =>
    rw [receive_of_fault hf]
    rfl
  | @frame a' arrival _ _ _ fits =>
    rw [receive_of_frame hf]
    exact deliver_ok (n := { n.noted now with assembler := a' }) h fits world

theorem receiveEach_results {n : Node σ} (hs : n.assembler.Sound) (h : n.Willing n.assembler.bound)
    (stream : List (Nat × UInt8)) (world : σ) :
    (n.receiveEach stream world).1 = (n.assembler.feedAll (stream.map (·.2))).1.map resultOf := by
  induction stream generalizing n world with
  | nil => rfl
  | cons x rest ih =>
    obtain ⟨now, byte⟩ := x
    obtain ⟨counters, lastByte, hnode⟩ := receive_node now byte n world
    have hbound : (n.assembler.feed byte).2.bound = n.assembler.bound := (hs.feed byte).bound_eq
    have hsound : (n.receive now byte world).2.1.assembler.Sound := by
      rw [hnode]
      exact (hs.feed byte).sound
    have hwilling : (n.receive now byte world).2.1.Willing
        (n.receive now byte world).2.1.assembler.bound := by
      rw [hnode]
      exact fun handler hh arrival fits => h handler hh arrival (hbound ▸ fits)
    have hrest := ih hsound hwilling (n.receive now byte world).2.2
    simp only [receiveEach, List.map_cons, Assembler.feedAll, receive_result hs h]
    rw [hrest, hnode]

theorem lengthErrors_receive (now : Nat) (byte : UInt8) (n : Node σ) (world : σ) :
    (n.receive now byte world).2.1.counters.lengthErrors =
      n.counters.lengthErrors + (Assembler.refusals [(n.assembler.feed byte).1]).toUInt64 := by
  generalize h : n.assembler.feed byte = fed
  obtain ⟨fault | _ | arrival, a⟩ := fed
  · rw [receive_of_fault h]
    rfl
  · rw [receive_of_more h]
    simp [Assembler.refusals, Except.toBool, noted]
  · obtain ⟨counters, hnode, hcount⟩ := deliver_node arrival { n.noted now with assembler := a } world
    rw [receive_of_frame h, hnode]
    simp [Assembler.refusals, Except.toBool, hcount, noted]

theorem lengthErrors_receiveEach (stream : List (Nat × UInt8)) (n : Node σ) (world : σ) :
    (n.receiveEach stream world).2.1.counters.lengthErrors =
      n.counters.lengthErrors +
        (Assembler.refusals (n.assembler.feedAll (stream.map (·.2))).1).toUInt64 := by
  induction stream generalizing n world with
  | nil => simp [receiveEach, Assembler.feedAll, Assembler.refusals]
  | cons x rest ih =>
    obtain ⟨now, byte⟩ := x
    obtain ⟨counters, lastByte, hnode⟩ := receive_node now byte n world
    have hcons := Assembler.refusals_cons (n.assembler.feed byte).1
      ((n.assembler.feed byte).2.feedAll (rest.map (·.2))).1
    simp only [receiveEach, ih, lengthErrors_receive, List.map_cons, Assembler.feedAll, hcons]
    rw [hnode]
    simp only [Nat.toUInt64_eq, UInt64.ofNat_add, UInt64.add_assoc]

/-- The states that a node gets into from its creation, whatever the world around it is
at each step. -/
inductive Reachable (address : UInt8) (settings : Settings) : Node σ → Prop where
  | created {n : Node σ} : create address settings = .ok n → Reachable address settings n
  | receive {n : Node σ} (now : Nat) (byte : UInt8) (world : σ) :
      Reachable address settings n → Reachable address settings (n.receive now byte world).2.1
  | send {n : Node σ} (p : Packet) (world : σ) :
      Reachable address settings n → Reachable address settings (n.send p world).2.1
  | withHandler {n : Node σ} (handler : Option (Handler σ)) :
      Reachable address settings n → Reachable address settings { n with handler }
  | withSink {n : Node σ} (sink : Option (Sink σ)) :
      Reachable address settings n → Reachable address settings { n with sink }
  | expire {n : Node σ} : Reachable address settings n → Reachable address settings n.expire.2
  | reset {n : Node σ} : Reachable address settings n → Reachable address settings n.reset

theorem create_ok {address : UInt8} {settings : Settings} {n : Node σ}
    (h : create address settings = .ok n) :
    settings.check = .ok () ∧
      n = { address, settings, assembler := .withBound settings.payloadBound.toNat } := by
  unfold create at h
  split at h
  · cases h
  · rename_i hcheck
    split at h
    · cases h
    · cases h
      exact ⟨hcheck, rfl⟩

theorem build_ok {address : UInt8} {settings : Settings} {handler : Option (Handler σ)}
    {sink : Option (Sink σ)} {n : Node σ}
    (h : build (some address) settings handler sink = .ok n) :
    settings.check = .ok () ∧
      n = { address, settings, handler, sink, assembler := .withBound settings.payloadBound.toNat } := by
  simp only [build] at h
  cases hc : (create address settings : Except ParamFault (Node σ)) with
  | error fault => simp [hc, Except.map] at h
  | ok created =>
    obtain ⟨hcheck, rfl⟩ := create_ok hc
    simp only [hc, Except.map, Except.ok.injEq] at h
    exact ⟨hcheck, h.symm⟩

theorem send_node (p : Packet) (n : Node σ) (world : σ) :
    ∃ counters, (n.send p world).2.1 = { n with counters } := by
  unfold send
  split
  · exact ⟨_, rfl⟩
  · split <;> exact ⟨_, rfl⟩

theorem Reachable.setup {address : UInt8} {settings : Settings} {n : Node σ}
    (h : n.Reachable address settings) :
    n.address = address ∧ n.settings = settings ∧ settings.check = .ok () ∧
      n.assembler.Reachable settings.payloadBound.toNat := by
  induction h with
  | created h =>
    obtain ⟨hcheck, rfl⟩ := create_ok h
    exact ⟨rfl, rfl, hcheck, .fresh⟩
  | @receive n now byte world _ ih =>
    obtain ⟨counters, lastByte, hnode⟩ := receive_node now byte n world
    obtain ⟨haddress, hsettings, hcheck, hassembler⟩ := ih
    rw [hnode]
    exact ⟨haddress, hsettings, hcheck, hassembler.feed byte⟩
  | @send n p world _ ih =>
    obtain ⟨counters, hnode⟩ := send_node p n world
    rw [hnode]
    exact ih
  | withHandler _ _ ih => exact ih
  | withSink _ _ ih => exact ih
  | @expire n _ ih =>
    unfold Node.expire
    split
    · exact ih
    · obtain ⟨haddress, hsettings, hcheck, hassembler⟩ := ih
      exact ⟨haddress, hsettings, hcheck, hassembler.reset⟩
  | reset _ ih =>
    obtain ⟨haddress, hsettings, hcheck, hassembler⟩ := ih
    exact ⟨haddress, hsettings, hcheck, hassembler.reset⟩

end Node

end TwoWire
