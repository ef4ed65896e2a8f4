import TwoWire.Proofs.NodeReception

/-! A log of what is called. A node whose handler and whose sink are logged behaves as
it does without the log, and the log tells which frames came to its handler and which
were handed to its sink, in order. -/

namespace TwoWire

/-- A frame that came to the handler of a node, or one that was handed to its sink: with
the state of the world before that call and what the sink said. -/
inductive Callback (ι σ : Type) where
  | handled (node : ι) (x : Exchange) (arrival : Arrival)
  | sunk (node : ι) (frame : List UInt8) (before : σ) (result : Except BusError Unit)

structure Logged (ι σ : Type) where
  world : σ
  log : List (Callback ι σ) := []

variable {ι σ α β : Type}

def Logged.note (entry : Callback ι σ) (w : Logged ι σ) : Logged ι σ :=
  { w with log := w.log ++ [entry] }

def Logged.place : Place (Logged ι σ) σ :=
  ⟨world, fun world w => { w with world }⟩

def Sink.logged (node : ι) (s : Sink σ) : Sink (Logged ι σ) := fun frame w =>
  let (result, world) := s frame w.world
  (result, { w with world }.note (.sunk node frame w.world result))

/-- The reaction beside a log, which it neither sees nor changes. -/
def Reaction.logged : Reaction σ α → Reaction (Logged ι σ) α
  | done result => done result
  | look next => look fun w => (next w.world).logged
  | change update next => change (fun w => { w with world := update w.world }) next.logged
  | send p next => send p fun result => (next result).logged
  | sent next => sent fun count => (next count).logged

def Handler.logged (node : ι) (h : Handler σ) : Handler (Logged ι σ) := fun x arrival =>
  .change (Logged.note (.handled node x arrival)) (h x arrival).logged

def Node.logged (node : ι) (n : Node σ) : Node (Logged ι σ) where
  address := n.address
  settings := n.settings
  assembler := n.assembler
  handler := n.handler.map (Handler.logged node)
  sink := n.sink.map (Sink.logged node)
  counters := n.counters
  lastByte := n.lastByte

/-- What a logged node does comes to what the node does. -/
structure Erases (node : ι) (logged : β × Node (Logged ι σ) × Logged ι σ)
    (plain : β × Node σ × σ) : Prop where
  result : logged.1 = plain.1
  node : logged.2.1 = plain.2.1.logged node
  world : logged.2.2.world = plain.2.2

theorem transmit_logged (node : ι) (sink : Option (Sink σ)) (bound : Nat) (p : Packet)
    (w : Logged ι σ) :
    let logged := transmit (sink.map (Sink.logged node)) bound p w
    let plain := transmit sink bound p w.world
    logged.1 = plain.1 ∧ logged.2.world = plain.2 := by
  simp only [transmit]
  generalize p.frameInto bound (List.replicate frameLimit 0) = framed
  obtain ⟨fault | size, buffer⟩ := framed
  · exact ⟨rfl, rfl⟩
  · cases sink with
    | none => exact ⟨rfl, rfl⟩
    | some s =>
      simp only [Option.map_some, Sink.logged]
      generalize s (buffer.take size) w.world = called
      obtain ⟨cause | _, world⟩ := called <;> exact ⟨rfl, rfl⟩

theorem Reaction.run_logged (node : ι) (sink : Option (Sink σ)) (bound : Nat) (r : Reaction σ α)
    (count : Nat) (w : Logged ι σ) :
    let logged := r.logged.run (sink.map (Sink.logged node)) bound count w
    let plain := r.run sink bound count w.world
    logged.1 = plain.1 ∧ logged.2.1 = plain.2.1 ∧ logged.2.2.world = plain.2.2 := by
  induction r generalizing count w with
  | done result => exact ⟨rfl, rfl, rfl⟩
  | look next ih => exact ih w.world count w
  | change update next ih => exact ih count { w with world := update w.world }
  | send p next ih =>
    have ht := transmit_logged node sink bound p w
    simp only [Reaction.logged, run]
    generalize TwoWire.transmit (sink.map (Sink.logged node)) bound p w = logged at ht
    generalize TwoWire.transmit sink bound p w.world = plain at ht
    obtain ⟨result, w'⟩ := logged
    obtain ⟨_, world⟩ := plain
    obtain ⟨rfl, rfl⟩ := ht
    cases result with
    | ok _ => exact ih _ (count + 1) w'
    | error cause => exact ih _ count w'
  | sent next ih => exact ih count count w

theorem Reaction.changes_logged {I : Logged ι σ → Prop} {r : Reaction σ α}
    (h : r.Changes fun update => ∀ w : Logged ι σ, I w → I { w with world := update w.world }) :
    (r.logged : Reaction (Logged ι σ) α).Changes fun update => ∀ w, I w → I (update w) := by
  induction r with
  | done result => trivial
  | look next ih => exact fun w => ih w.world (h w.world)
  | change update next ih => exact ⟨h.1, ih h.2⟩
  | send p next ih => exact fun result => ih result (h result)
  | sent next ih => exact fun count => ih count (h count)

namespace Node

@[simp] theorem settings_logged (node : ι) (n : Node σ) : (n.logged node).settings = n.settings := rfl

@[simp] theorem handler_logged (node : ι) (n : Node σ) :
    (n.logged node).handler = n.handler.map (Handler.logged node) := rfl

@[simp] theorem sink_logged (node : ι) (n : Node σ) :
    (n.logged node).sink = n.sink.map (Sink.logged node) := rfl

theorem erases_send (node : ι) (p : Packet) (n : Node σ) (w : Logged ι σ) :
    Erases node ((n.logged node).send p w) (n.send p w.world) := by
  have ht := transmit_logged node n.sink n.settings.payloadBound.toNat p w
  simp only [send, sink_logged, settings_logged]
  generalize transmit (n.sink.map (Sink.logged node)) _ p w = logged at ht
  generalize transmit n.sink _ p w.world = plain at ht
  obtain ⟨result, w'⟩ := logged
  obtain ⟨_, world⟩ := plain
  obtain ⟨rfl, rfl⟩ := ht
  cases result with
  | ok _ => exact ⟨rfl, rfl, rfl⟩
  | error cause => simp only; split <;> exact ⟨rfl, rfl, rfl⟩

theorem react_logged (node : ι) (handler : Handler σ) (arrival : Arrival) (n : Node σ)
    (w : Logged ι σ) :
    let logged := (n.logged node).react (handler.logged node) arrival w
    let plain := n.react handler arrival w.world
    logged.1 = plain.1 ∧ logged.2.1 = plain.2.1 ∧ logged.2.2.world = plain.2.2 :=
  Reaction.run_logged node n.sink n.settings.payloadBound.toNat
    (handler ⟨n.address, arrival.header.source⟩ arrival) 0
    (w.note (.handled node ⟨n.address, arrival.header.source⟩ arrival))

theorem erases_deliver (node : ι) (arrival : Arrival) (n : Node σ) (w : Logged ι σ) :
    Erases node ((n.logged node).deliver arrival w) (n.deliver arrival w.world) := by
  cases h : n.accepts arrival with
  | false =>
    rw [deliver_of_refused h, deliver_of_refused (n := n.logged node) h]
    exact ⟨rfl, rfl, rfl⟩
  | true =>
    rcases n.handler.eq_none_or_eq_some with hh | ⟨handler, hh⟩
    · rw [deliver_of_unhandled h hh, deliver_of_unhandled (n := n.logged node) h (by simp [hh])]
      exact ⟨rfl, rfl, rfl⟩
    · have hl : (n.logged node).handler = some (handler.logged node) := by simp [hh]
      obtain ⟨hresult, hsent, hworld⟩ := react_logged node handler arrival n w
      rw [deliver_of_handled h hh, deliver_of_handled (n := n.logged node) h hl]
      simp only [hresult, hsent]
      exact ⟨rfl, rfl, hworld⟩

theorem erases_receive (node : ι) (now : Nat) (byte : UInt8) (n : Node σ) (w : Logged ι σ) :
    Erases node ((n.logged node).receive now byte w) (n.receive now byte w.world) := by
  generalize h : n.assembler.feed byte = fed
  obtain ⟨fault | _ | arrival, a⟩ := fed
  · rw [receive_of_fault h, receive_of_fault (n := n.logged node) h]
    exact ⟨rfl, rfl, rfl⟩
  · rw [receive_of_more h, receive_of_more (n := n.logged node) h]
    exact ⟨rfl, rfl, rfl⟩
  · rw [receive_of_frame h, receive_of_frame (n := n.logged node) h]
    exact erases_deliver node arrival { n.noted now with assembler := a } w

theorem erases_receiveEach (node : ι) (stream : List (Nat × UInt8)) (n : Node σ)
    (w : Logged ι σ) :
    Erases node ((n.logged node).receiveEach stream w) (n.receiveEach stream w.world) := by
  induction stream generalizing n w with
  | nil => exact ⟨rfl, rfl, rfl⟩
  | cons x rest ih =>
    obtain ⟨now, byte⟩ := x
    have hfirst := erases_receive node now byte n w
    have hrest := ih (n.receive now byte w.world).2.1 ((n.logged node).receive now byte w).2.2
    simp only [receiveEach]
    rw [hfirst.node]
    rw [hfirst.world] at hrest
    exact ⟨by rw [hrest.result, hfirst.result], hrest.node, hrest.world⟩

theorem erases_receiveChunks (node : ι) (chunks : List (Nat × List UInt8)) (n : Node σ)
    (w : Logged ι σ) :
    Erases node ((n.logged node).receiveChunks chunks w) (n.receiveChunks chunks w.world) := by
  induction chunks generalizing n w with
  | nil => exact ⟨rfl, rfl, rfl⟩
  | cons chunk rest ih =>
    obtain ⟨now, bytes⟩ := chunk
    let stream := bytes.map (now, ·)
    have hfirst := erases_receiveEach node stream n w
    have hrest := ih (n.receiveEach stream w.world).2.1 ((n.logged node).receiveEach stream w).2.2
    simp only [receiveChunks, receiveAll_eq]
    rw [hfirst.node]
    rw [hfirst.world] at hrest
    exact ⟨by rw [hrest.result, hfirst.result], hrest.node, hrest.world⟩

theorem expire_logged (node : ι) (n : Node σ) :
    (n.logged node).expire = (n.expire.1, n.expire.2.logged node) := by
  cases h : n.assembler.isIdle with
  | true => simp [expire, logged, h]
  | false => simp [expire, logged, h]

theorem checkIdle_logged (node : ι) (now : Nat) (n : Node σ) :
    (n.logged node).checkIdle now = ((n.checkIdle now).1, (n.checkIdle now).2.logged node) := by
  have hlast : (n.logged node).lastByte = n.lastByte := rfl
  simp only [checkIdle, settings_logged, hlast]
  split
  · split
    · rfl
    · exact expire_logged node n
  · rfl

end Node

/-- What a transmission leaves of a logged world: nothing has happened to it, or one
call of the sink with the whole frame of a packet within the bound. -/
theorem transmit_logged_world (node : ι) (sink : Option (Sink σ)) (bound : Nat) (p : Packet)
    (w : Logged ι σ) :
    (transmit (sink.map (Sink.logged node)) bound p w).2 = w ∨
      p.payload.length ≤ min bound payloadLimit ∧ ∃ s, sink = some s ∧
        (transmit (sink.map (Sink.logged node)) bound p w).2 =
          (Sink.logged node s (Arrival.ofPacket p).bytes w).2 := by
  have ht := transmit_transmitted (sink.map (Sink.logged node)) bound p w
  generalize transmit (sink.map (Sink.logged node)) bound p w = t at ht
  cases ht with
  | tooLong | noSink => exact .inl rfl
  | accepted fits present call | failed fits present call =>
    obtain ⟨s, hs, rfl⟩ := Option.map_eq_some_iff.mp present
    exact .inr ⟨fits, s, hs, by rw [call]⟩

namespace Node

/-- A property of the logged world that is kept whenever a node calls its sink and
whenever its handler changes the world. -/
structure Keeps (node : ι) (I : Logged ι σ → Prop) (n : Node σ) : Prop where
  sink : ∀ s, n.sink = some s → ∀ p : Packet, p.payload.length ≤ payloadLimit → ∀ w, I w →
    I (Sink.logged node s (Arrival.ofPacket p).bytes w).2
  handler : ∀ handler, n.handler = some handler → ∀ x arrival,
    (handler x arrival).Changes fun update => ∀ w, I w → I { w with world := update w.world }

namespace Keeps

variable {node : ι} {I : Logged ι σ → Prop} {n : Node σ}

theorem transmit (h : n.Keeps node I) (bound : Nat) (p : Packet) {w : Logged ι σ} (hw : I w) :
    I (TwoWire.transmit (n.sink.map (Sink.logged node)) bound p w).2 := by
  rcases transmit_logged_world node n.sink bound p w with he | ⟨fits, s, hs, he⟩
  · rwa [he]
  · rw [he]
    exact h.sink s hs p (by omega) w hw

theorem send (h : n.Keeps node I) (p : Packet) {w : Logged ι σ} (hw : I w) :
    I ((n.logged node).send p w).2.2 := by
  have ht := h.transmit n.settings.payloadBound.toNat p hw
  simp only [Node.send, sink_logged, settings_logged]
  generalize TwoWire.transmit (n.sink.map (Sink.logged node)) _ p w = transmitted at ht
  obtain ⟨cause | _, w'⟩ := transmitted
  · simp only
    split <;> exact ht
  · exact ht

theorem react (h : n.Keeps node I) {handler : Handler σ} (present : n.handler = some handler)
    {arrival : Arrival} {w : Logged ι σ}
    (hw : I (w.note (.handled node ⟨n.address, arrival.header.source⟩ arrival))) :
    I ((n.logged node).react (handler.logged node) arrival w).2.2 :=
  Reaction.run_induction (fun p _ hw' => h.transmit _ p hw')
    (Reaction.changes_logged (h.handler handler present _ arrival)) 0 hw

theorem deliver (h : n.Keeps node I)
    (hnote : ∀ x arrival w, I w → I (w.note (.handled node x arrival))) (arrival : Arrival)
    {w : Logged ι σ} (hw : I w) : I ((n.logged node).deliver arrival w).2.2 := by
  cases ha : n.accepts arrival with
  | false => rwa [deliver_of_refused (n := n.logged node) ha]
  | true =>
    rcases n.handler.eq_none_or_eq_some with hh | ⟨handler, hh⟩
    · rwa [deliver_of_unhandled (n := n.logged node) ha (by simp [hh])]
    · have hl : (n.logged node).handler = some (handler.logged node) := by simp [hh]
      rw [deliver_of_handled (n := n.logged node) ha hl]
      exact h.react hh (hnote _ arrival w hw)

theorem receive (h : n.Keeps node I)
    (hnote : ∀ x arrival w, I w → I (w.note (.handled node x arrival))) (now : Nat) (byte : UInt8)
    {w : Logged ι σ} (hw : I w) : I ((n.logged node).receive now byte w).2.2 := by
  generalize hf : n.assembler.feed byte = fed
  obtain ⟨fault | _ | arrival, a⟩ := fed
  · rwa [receive_of_fault (n := n.logged node) hf]
  · rwa [receive_of_more (n := n.logged node) hf]
  · rw [receive_of_frame (n := n.logged node) hf]
    exact deliver (n := { n.noted now with assembler := a }) ⟨h.sink, h.handler⟩ hnote arrival hw

end Keeps

end Node

def handled [DecidableEq ι] (node : ι) (log : List (Callback ι σ)) : List (Exchange × Arrival) :=
  log.filterMap fun
    | .handled other x arrival => if other = node then some (x, arrival) else none
    | .sunk .. => none

def sunk [DecidableEq ι] (node : ι) (log : List (Callback ι σ)) :
    List (List UInt8 × Except BusError Unit) :=
  log.filterMap fun
    | .handled .. => none
    | .sunk other frame _ result => if other = node then some (frame, result) else none

variable [DecidableEq ι]

theorem handled_sink (node other : ι) (s : Sink σ) (frame : List UInt8) (w : Logged ι σ) :
    handled node (Sink.logged other s frame w).2.log = handled node w.log := by
  simp [Sink.logged, Logged.note, handled]

namespace Node

theorem handled_react (node : ι) {handler : Handler σ} (arrival : Arrival) {n : Node σ}
    (present : n.handler = some handler) (w : Logged ι σ) :
    handled node ((n.logged node).react (handler.logged node) arrival w).2.2.log =
      handled node w.log ++ [n.call arrival] := by
  have hkeeps : n.Keeps node fun w' => handled node w'.log = handled node w.log ++ [n.call arrival] :=
    ⟨fun s _ p _ w' h => (handled_sink node node s _ w').trans h,
      fun _ _ _ _ => Reaction.changes_of_forall (fun _ _ h => h) _⟩
  exact hkeeps.react present (by simp [Logged.note, handled, call])

def handles (n : Node σ) (arrival : Arrival) : Bool :=
  n.handler.isSome && n.accepts arrival

theorem handled_deliver (node : ι) (arrival : Arrival) (n : Node σ) (w : Logged ι σ) :
    handled node ((n.logged node).deliver arrival w).2.2.log =
      handled node w.log ++
        if n.handles arrival then [n.call arrival] else [] := by
  cases h : n.accepts arrival with
  | false =>
    rw [deliver_of_refused (n := n.logged node) h]
    simp [handles, h]
  | true =>
    rcases n.handler.eq_none_or_eq_some with hh | ⟨handler, hh⟩
    · rw [deliver_of_unhandled (n := n.logged node) h (by simp [hh])]
      simp [handles, hh]
    · have hl : (n.logged node).handler = some (handler.logged node) := by simp [hh]
      rw [deliver_of_handled (n := n.logged node) h hl]
      simp [handles, hh, h, handled_react node arrival hh]

theorem handled_receive (node : ι) (now : Nat) (byte : UInt8) (n : Node σ) (w : Logged ι σ) :
    handled node ((n.logged node).receive now byte w).2.2.log =
      handled node w.log ++
        ((Assembler.completed [(n.assembler.feed byte).1]).filter n.handles).map n.call := by
  generalize h : n.assembler.feed byte = fed
  obtain ⟨fault | _ | arrival, a⟩ := fed
  · rw [receive_of_fault (n := n.logged node) h]
    simp [Assembler.completed]
  · rw [receive_of_more (n := n.logged node) h]
    simp [Assembler.completed]
  · rw [receive_of_frame (n := n.logged node) h]
    refine (handled_deliver node arrival { n.noted now with assembler := a } w).trans ?_
    change _ ++ (if n.handles arrival then [n.call arrival] else []) = _
    cases hh : n.handles arrival <;> simp [Assembler.completed, hh]

/-- The frames that come to the handler are those that are completed and pass the filter,
each once and in order. -/
theorem handled_receiveEach (node : ι) (stream : List (Nat × UInt8)) (n : Node σ)
    (w : Logged ι σ) :
    handled node ((n.logged node).receiveEach stream w).2.2.log =
      handled node w.log ++
        ((Assembler.completed (n.assembler.feedAll (stream.map (·.2))).1).filter n.handles).map
          n.call := by
  induction stream generalizing n w with
  | nil => simp [receiveEach, Assembler.feedAll, Assembler.completed]
  | cons x rest ih =>
    obtain ⟨now, byte⟩ := x
    obtain ⟨counters, lastByte, hnode⟩ := receive_node now byte n w.world
    have hrest := ih (n.receive now byte w.world).2.1 ((n.logged node).receive now byte w).2.2
    have hcons := Assembler.completed_cons (n.assembler.feed byte).1
      ((n.assembler.feed byte).2.feedAll (rest.map (·.2))).1
    simp only [receiveEach, List.map_cons, Assembler.feedAll, hcons]
    rw [(erases_receive node now byte n w).node, hrest, handled_receive, hnode, List.filter_append,
      List.map_append, List.append_assoc]
    rfl

end Node

end TwoWire
