import TwoWire.Proofs.Accounting
import TwoWire.Proofs.Draining

/-! Receiving in batches. A batch comes to its bytes one after another, whatever fails on the
way, and the first failure is reported. Draining a buffer that nothing else touches comes to
receiving what the buffer holds. -/

namespace TwoWire

variable {ι σ α β : Type}

def failed? : Except BusError Unit → Option BusError
  | .ok () => none
  | .error cause => some cause

/-- The first failure among some results, or a value if there is none. -/
def report (value : α) (results : List (Except BusError Unit)) : Except BusError α :=
  match results.findSome? failed? with
  | some cause => .error cause
  | none => .ok value

theorem report_cons (value : α) (result : Except BusError Unit)
    (results : List (Except BusError Unit)) :
    report value (result :: results) = Node.firstFailure result (report value results) := by
  cases result <;> rfl

theorem report_append (value : α) (xs ys : List (Except BusError Unit)) :
    report value (xs ++ ys) = Node.firstFailure (report () xs) (report value ys) := by
  induction xs with
  | nil => rfl
  | cons result rest ih =>
    rw [List.cons_append, report_cons, report_cons, ih]
    cases result <;> rfl

theorem foldr_firstFailure (results : List (Except BusError Unit)) :
    results.foldr Node.firstFailure (.ok ()) = report () results := by
  induction results with
  | nil => rfl
  | cons result rest ih => rw [List.foldr_cons, ih, report_cons]

theorem map_firstFailure (f : α → β) (earlier : Except BusError Unit) (later : Except BusError α) :
    (Node.firstFailure earlier later).map f = Node.firstFailure earlier (later.map f) := by
  cases earlier <;> rfl

theorem map_report (f : α → β) (value : α) (results : List (Except BusError Unit)) :
    (report value results).map f = report (f value) results := by
  induction results with
  | nil => rfl
  | cons result rest ih => rw [report_cons, report_cons, map_firstFailure, ih]

/-- What came of receiving a byte. -/
def Event.result? (e : Event σ) : Option (Except BusError Unit) :=
  match e.occurrence with
  | .byte _ result => some result
  | _ => none

namespace Chronicle

variable {inbox : Place σ ByteQueue} {c : Chronicle σ}

theorem drain_of_nil (now looks : Nat) (h : (inbox.get c.world).bytes = []) :
    c.drain inbox now (looks + 1) = { c with world := inbox.popped c.world } := by
  simp only [drain, Place.run, Place.popped, ByteQueue.pop_of_nil h]

theorem drain_of_cons (now looks : Nat) {byte : UInt8} {rest : List UInt8}
    (h : (inbox.get c.world).bytes = byte :: rest) :
    c.drain inbox now (looks + 1) =
      ({ c with world := inbox.popped c.world }.receive now byte).drain inbox now looks := by
  simp only [drain, Place.run, Place.popped, ByteQueue.pop_of_cons h]

theorem results_receive (now : Nat) (byte : UInt8) (c : Chronicle σ) :
    (c.receive now byte).events.filterMap Event.result? =
      c.events.filterMap Event.result? ++ [(c.node.receive now byte c.world).1] := by
  simp only [receive, note, List.filterMap_append]
  rfl

end Chronicle

namespace Node

theorem receiveAll_report (now : Nat) (bytes : List UInt8) (n : Node σ) (world : σ) :
    n.receiveAll now bytes world =
      let each := n.receiveEach (bytes.map (now, ·)) world
      (report () each.1, each.2) := by
  simp only [receiveAll_eq, foldr_firstFailure]

theorem receiveAll_append (now : Nat) (a b : List UInt8) (n : Node σ) (world : σ) :
    n.receiveAll now (a ++ b) world =
      let first := n.receiveAll now a world
      let second := first.2.1.receiveAll now b first.2.2
      (firstFailure first.1 second.1, second.2) := by
  simp only [receiveAll_report, List.map_append, receiveEach_append, report_append]

theorem erases_receiveAll (node : ι) (now : Nat) (bytes : List UInt8) (n : Node σ)
    (w : Logged ι σ) :
    Erases node ((n.logged node).receiveAll now bytes w) (n.receiveAll now bytes w.world) := by
  have heach := erases_receiveEach node (bytes.map (now, ·)) n w
  rw [receiveAll_report, receiveAll_report]
  exact ⟨congrArg (report ()) heach.result, heach.node, heach.world⟩

theorem length_receiveEach (stream : List (Nat × UInt8)) (n : Node σ) (world : σ) :
    (n.receiveEach stream world).1.length = stream.length := by
  induction stream generalizing n world with
  | nil => rfl
  | cons x rest ih => simp only [receiveEach, List.length_cons, ih]

theorem bytesReceived_receive (now : Nat) (byte : UInt8) (n : Node σ) (world : σ) :
    (n.receive now byte world).2.1.counters.bytesReceived = n.counters.bytesReceived + 1 :=
  counted_receive now byte n world .bytesReceived rfl

theorem bytesReceived_receiveEach (stream : List (Nat × UInt8)) (n : Node σ) (world : σ) :
    (n.receiveEach stream world).2.1.counters.bytesReceived =
      n.counters.bytesReceived + stream.length.toUInt64 := by
  induction stream generalizing n world with
  | nil => exact (UInt64.add_zero _).symm
  | cons x rest ih =>
    obtain ⟨now, byte⟩ := x
    have hrest := ih (n.receive now byte world).2.1 (n.receive now byte world).2.2
    simp only [receiveEach, hrest, bytesReceived_receive, List.length_cons, Nat.toUInt64_eq,
      UInt64.ofNat_add, UInt64.add_assoc]
    rw [UInt64.add_comm 1]
    rfl

end Node

/-- The call without what the world was like before it. -/
def Callback.bare : Callback ι σ → Callback ι Unit
  | .handled node x arrival => .handled node x arrival
  | .sunk node frame _ result => .sunk node frame () result

def Logged.calls (w : Logged ι σ) : List (Callback ι Unit) :=
  w.log.map Callback.bare

/-- Nothing is added to a buffer by what a node calls. -/
structure Node.Unfed (inbox : Place σ ByteQueue) (n : Node σ) : Prop where
  sink : ∀ s, n.sink = some s → ∀ frame world,
    (inbox.get (s frame world).2).length ≤ (inbox.get world).length
  handler : ∀ handler, n.handler = some handler → ∀ x arrival,
    (handler x arrival).Changes fun update => ∀ world,
      (inbox.get (update world)).length ≤ (inbox.get world).length

/-- A sink to which it makes no difference what a buffer holds, and which leaves it alone. -/
def Sink.Ignores (inbox : Place σ ByteQueue) (s : Sink σ) : Prop :=
  ∀ frame q world, s frame (inbox.set q world) =
    ((s frame world).1, inbox.set q (s frame world).2)

def Reaction.Ignores (inbox : Place σ ByteQueue) : Reaction σ α → Prop
  | done _ => True
  | look next => (∀ q world, next (inbox.set q world) = next world) ∧
      ∀ world, (next world).Ignores inbox
  | change update next => (∀ q world, update (inbox.set q world) = inbox.set q (update world)) ∧
      next.Ignores inbox
  | send _ next => ∀ result, (next result).Ignores inbox
  | sent next => ∀ count, (next count).Ignores inbox

structure Node.Ignores (inbox : Place σ ByteQueue) (n : Node σ) : Prop where
  sink : ∀ s, n.sink = some s → Sink.Ignores inbox s
  handler : ∀ handler, n.handler = some handler → ∀ x arrival, (handler x arrival).Ignores inbox

theorem Place.Lawful.get_of_commutes {p : Place σ β} (lawful : p.Lawful) {f : σ → σ}
    (commutes : ∀ b s, f (p.set b s) = p.set b (f s)) (s : σ) : p.get (f s) = p.get s := by
  have hf : f s = p.set (p.get s) (f s) := by rw [← commutes, lawful.set_get]
  rw [hf, lawful.get_set]

theorem Sink.Ignores.get_eq {inbox : Place σ ByteQueue} {s : Sink σ} (h : Sink.Ignores inbox s)
    (lawful : inbox.Lawful) (frame : List UInt8) (world : σ) :
    inbox.get (s frame world).2 = inbox.get world :=
  lawful.get_of_commutes (f := fun world => (s frame world).2)
    (fun q world => congrArg Prod.snd (h frame q world)) world

theorem Reaction.Ignores.changes {inbox : Place σ ByteQueue} {r : Reaction σ α}
    (h : r.Ignores inbox) (lawful : inbox.Lawful) :
    r.Changes fun update => ∀ world, inbox.get (update world) = inbox.get world := by
  induction r with
  | done result => trivial
  | look next ih => exact fun world => ih world (h.2 world)
  | change update next ih => exact ⟨lawful.get_of_commutes h.1, ih h.2⟩
  | send p next ih => exact fun result => ih result (h result)
  | sent next ih => exact fun count => ih count (h count)

/-- Two logged worlds that differ in the buffer only, after the same calls. -/
structure Alike (inbox : Place σ ByteQueue) (w w' : Logged ι σ) : Prop where
  world : ∀ q, inbox.set q w.world = inbox.set q w'.world
  calls : w.calls = w'.calls

section Alike

variable {inbox : Place σ ByteQueue} {w w' : Logged ι σ}

theorem Alike.refl (inbox : Place σ ByteQueue) (w : Logged ι σ) : Alike inbox w w :=
  ⟨fun _ => rfl, rfl⟩

theorem Alike.set (h : Alike inbox w w') (lawful : inbox.Lawful) (q : ByteQueue) :
    Alike inbox { w with world := inbox.set q w.world } w' :=
  ⟨fun q' => (lawful.set_set q' q w.world).trans (h.world q'), h.calls⟩

theorem Alike.note (h : Alike inbox w w') {entry entry' : Callback ι σ}
    (same : entry.bare = entry'.bare) : Alike inbox (w.note entry) (w'.note entry') := by
  refine ⟨h.world, ?_⟩
  have hcalls : w.log.map Callback.bare = w'.log.map Callback.bare := h.calls
  simp only [Logged.calls, Logged.note, List.map_append, hcalls, List.map_cons, same]

theorem Alike.look (h : Alike inbox w w') {next : σ → Reaction σ α}
    (ignores : ∀ q world, next (inbox.set q world) = next world) :
    next w.world = next w'.world := by
  let q := inbox.get w.world
  calc next w.world = next (inbox.set q w.world) := (ignores q w.world).symm
    _ = next (inbox.set q w'.world) := by rw [h.world q]
    _ = next w'.world := ignores q w'.world

theorem Alike.change (h : Alike inbox w w') {update : σ → σ}
    (ignores : ∀ q world, update (inbox.set q world) = inbox.set q (update world)) :
    Alike inbox { w with world := update w.world } { w' with world := update w'.world } := by
  refine ⟨fun q => ?_, h.calls⟩
  calc inbox.set q (update w.world) = update (inbox.set q w.world) := (ignores q w.world).symm
    _ = update (inbox.set q w'.world) := by rw [h.world q]
    _ = inbox.set q (update w'.world) := ignores q w'.world

theorem Alike.sink (h : Alike inbox w w') (node : ι) {s : Sink σ} (ignores : Sink.Ignores inbox s)
    (frame : List UInt8) :
    let called := Sink.logged node s frame w
    let called' := Sink.logged node s frame w'
    called.1 = called'.1 ∧ Alike inbox called.2 called'.2 := by
  intro called called'
  have hcall (q : ByteQueue) : ((s frame w.world).1, inbox.set q (s frame w.world).2) =
      ((s frame w'.world).1, inbox.set q (s frame w'.world).2) := by
    rw [← ignores frame q w.world, ← ignores frame q w'.world, h.world q]
  have hresult : (s frame w.world).1 = (s frame w'.world).1 :=
    (Prod.mk.inj (hcall (inbox.get w.world))).1
  have hworlds : Alike inbox { w with world := (s frame w.world).2 }
      { w' with world := (s frame w'.world).2 } :=
    ⟨fun q => (Prod.mk.inj (hcall q)).2, h.calls⟩
  exact ⟨hresult, hworlds.note (by simp only [Callback.bare, hresult])⟩

theorem Alike.transmit (h : Alike inbox w w') (node : ι) {sink : Option (Sink σ)}
    (ignores : ∀ s, sink = some s → Sink.Ignores inbox s) (bound : Nat) (p : Packet) :
    let transmitted := TwoWire.transmit (sink.map (Sink.logged node)) bound p w
    let transmitted' := TwoWire.transmit (sink.map (Sink.logged node)) bound p w'
    transmitted.1 = transmitted'.1 ∧ Alike inbox transmitted.2 transmitted'.2 := by
  simp only [TwoWire.transmit]
  generalize p.frameInto bound (List.replicate frameLimit 0) = framed
  obtain ⟨fault | size, buffer⟩ := framed
  · exact ⟨rfl, h⟩
  · cases sink with
    | none => exact ⟨rfl, h⟩
    | some s =>
      obtain ⟨hresult, hworlds⟩ := h.sink node (ignores s rfl) (buffer.take size)
      simp only [Option.map_some]
      generalize Sink.logged node s (buffer.take size) w = called at hresult hworlds
      generalize Sink.logged node s (buffer.take size) w' = called' at hresult hworlds
      obtain ⟨result, world⟩ := called
      obtain ⟨_, world'⟩ := called'
      cases hresult
      cases result with
      | ok _ => exact ⟨rfl, hworlds⟩
      | error cause => exact ⟨rfl, hworlds⟩

/-- A reaction that does not look at a buffer goes the same way whatever the buffer holds. -/
theorem Alike.run (h : Alike inbox w w') (node : ι) {sink : Option (Sink σ)}
    (ignores : ∀ s, sink = some s → Sink.Ignores inbox s) (bound : Nat) {r : Reaction σ α}
    (hr : r.Ignores inbox) (count : Nat) :
    let ran := r.logged.run (sink.map (Sink.logged node)) bound count w
    let ran' := r.logged.run (sink.map (Sink.logged node)) bound count w'
    ran.1 = ran'.1 ∧ ran.2.1 = ran'.2.1 ∧ Alike inbox ran.2.2 ran'.2.2 := by
  induction r generalizing count w w' with
  | done result => exact ⟨rfl, rfl, h⟩
  | look next ih =>
    have hnext := h.look hr.1
    have hrest := ih w.world h (hr.2 w.world) count
    simp only [Reaction.logged, Reaction.run] at hrest ⊢
    rw [← hnext]
    exact hrest
  | change update next ih => exact ih (h.change hr.1) hr.2 count
  | send p next ih =>
    obtain ⟨hresult, hworlds⟩ := h.transmit node ignores bound p
    simp only [Reaction.logged, Reaction.run]
    generalize TwoWire.transmit (sink.map (Sink.logged node)) bound p w = t at hresult hworlds
    generalize TwoWire.transmit (sink.map (Sink.logged node)) bound p w' = t' at hresult hworlds
    obtain ⟨result, world⟩ := t
    obtain ⟨_, world'⟩ := t'
    cases hresult
    cases result with
    | ok _ => exact ih (.ok ()) hworlds (hr (.ok ())) (count + 1)
    | error cause => exact ih (.error cause) hworlds (hr (.error cause)) count
  | sent next ih => exact ih count h (hr count) count

end Alike

namespace Node

variable {inbox : Place σ ByteQueue} {n : Node σ} {w w' : Logged ι σ}

theorem Ignores.deliver_alike (h : n.Ignores inbox) (node : ι) (alike : Alike inbox w w')
    (arrival : Arrival) :
    let delivered := n.deliver arrival w.world
    let delivered' := n.deliver arrival w'.world
    delivered.1 = delivered'.1 ∧ delivered.2.1 = delivered'.2.1 ∧
      Alike inbox ((n.logged node).deliver arrival w).2.2
        ((n.logged node).deliver arrival w').2.2 := by
  cases ha : n.accepts arrival with
  | false =>
    rw [deliver_of_refused ha, deliver_of_refused ha, deliver_of_refused (n := n.logged node) ha,
      deliver_of_refused (n := n.logged node) ha]
    exact ⟨rfl, rfl, alike⟩
  | true =>
    rcases n.handler.eq_none_or_eq_some with hh | ⟨handler, hh⟩
    · have hl : (n.logged node).handler = none := by simp [hh]
      rw [deliver_of_unhandled ha hh, deliver_of_unhandled ha hh,
        deliver_of_unhandled (n := n.logged node) ha hl,
        deliver_of_unhandled (n := n.logged node) ha hl]
      exact ⟨rfl, rfl, alike⟩
    · have hl : (n.logged node).handler = some (handler.logged node) := by simp [hh]
      let x : Exchange := ⟨n.address, arrival.header.source⟩
      have hnoted : Alike inbox (w.note (.handled node x arrival))
          (w'.note (.handled node x arrival)) := alike.note rfl
      obtain ⟨hresult, hsent, hworlds⟩ := hnoted.run node h.sink n.settings.payloadBound.toNat
        (h.handler handler hh x arrival) 0
      obtain ⟨hr, hs, -⟩ := react_logged node handler arrival n w
      obtain ⟨hr', hs', -⟩ := react_logged node handler arrival n w'
      have hreact : (n.react handler arrival w.world).1 = (n.react handler arrival w'.world).1 :=
        hr.symm.trans (hresult.trans hr')
      have hcount : (n.react handler arrival w.world).2.1 =
          (n.react handler arrival w'.world).2.1 := hs.symm.trans (hsent.trans hs')
      rw [deliver_of_handled ha hh, deliver_of_handled ha hh,
        deliver_of_handled (n := n.logged node) ha hl,
        deliver_of_handled (n := n.logged node) ha hl]
      simp only [hreact, hcount]
      exact ⟨trivial, trivial, hworlds⟩

theorem Ignores.receive_alike (h : n.Ignores inbox) (node : ι) (alike : Alike inbox w w')
    (now : Nat) (byte : UInt8) :
    let received := n.receive now byte w.world
    let received' := n.receive now byte w'.world
    received.1 = received'.1 ∧ received.2.1 = received'.2.1 ∧
      Alike inbox ((n.logged node).receive now byte w).2.2
        ((n.logged node).receive now byte w').2.2 := by
  generalize hf : n.assembler.feed byte = fed
  obtain ⟨fault | _ | arrival, a⟩ := fed
  · rw [receive_of_fault hf, receive_of_fault hf, receive_of_fault (n := n.logged node) hf,
      receive_of_fault (n := n.logged node) hf]
    exact ⟨rfl, rfl, alike⟩
  · rw [receive_of_more hf, receive_of_more hf, receive_of_more (n := n.logged node) hf,
      receive_of_more (n := n.logged node) hf]
    exact ⟨rfl, rfl, alike⟩
  · have hfed : Ignores inbox { n.noted now with assembler := a } := ⟨h.sink, h.handler⟩
    rw [receive_of_frame hf, receive_of_frame hf, receive_of_frame (n := n.logged node) hf,
      receive_of_frame (n := n.logged node) hf]
    exact hfed.deliver_alike node alike arrival

theorem Ignores.receive (h : n.Ignores inbox) (now : Nat) (byte : UInt8) (world : σ) :
    (n.receive now byte world).2.1.Ignores inbox := by
  obtain ⟨counters, lastByte, hnode⟩ := receive_node now byte n world
  rw [hnode]
  exact ⟨h.sink, h.handler⟩

theorem Unfed.receive (h : n.Unfed inbox) (now : Nat) (byte : UInt8) (world : σ) :
    (n.receive now byte world).2.1.Unfed inbox := by
  obtain ⟨counters, lastByte, hnode⟩ := receive_node now byte n world
  rw [hnode]
  exact ⟨h.sink, h.handler⟩

theorem Unfed.keeps (h : n.Unfed inbox) (node : ι) (limit : Nat) :
    n.Keeps node fun w => (inbox.get w.world).length ≤ limit := by
  refine ⟨fun s hs p _ w hw => ?_, fun handler hh x arrival => ?_⟩
  · exact Nat.le_trans (h.sink s hs _ w.world) hw
  · refine (h.handler handler hh x arrival).mono fun update hupdate w hw => ?_
    exact Nat.le_trans (hupdate w.world) hw

theorem Unfed.length_receive (h : n.Unfed inbox) (now : Nat) (byte : UInt8) (world : σ) :
    (inbox.get (n.receive now byte world).2.2).length ≤ (inbox.get world).length := by
  have hkept := (h.keeps () (inbox.get world).length).receive (fun _ _ _ hw => hw) now byte
    (w := ⟨world, []⟩) (Nat.le_refl _)
  rwa [(erases_receive () now byte n ⟨world, []⟩).world] at hkept

/-- What is not added to while it is drained becomes empty. Draining it is receiving one byte
after another, of which the first failure is reported or else their number. -/
theorem Unfed.drainWithin {c : Chronicle σ} (h : c.node.Unfed inbox) (lawful : inbox.Lawful)
    (now : Nat) {looks : Nat} (enough : (inbox.get c.world).length < looks) :
    let c' := c.drain inbox now looks
    ∃ results, c'.events.filterMap Event.result? = c.events.filterMap Event.result? ++ results ∧
      c.node.drainWithin inbox now looks c.world =
        some (report results.length results, c'.node, c'.world) ∧
      results.length ≤ (inbox.get c.world).length ∧
      c'.node.counters.bytesReceived = c.node.counters.bytesReceived + results.length.toUInt64 ∧
      (inbox.get c'.world).bytes = [] := by
  induction looks generalizing c with
  | zero => omega
  | succ looks ih =>
    have hpopped : inbox.get (inbox.popped c.world) = (inbox.get c.world).pop.2 :=
      lawful.get_set _ c.world
    cases hq : (inbox.get c.world).bytes with
    | nil =>
      rw [Chronicle.drain_of_nil now looks hq, drainWithin_of_nil now looks c.node hq]
      refine ⟨[], (List.append_nil _).symm, rfl, Nat.zero_le _, (UInt64.add_zero _).symm, ?_⟩
      show (inbox.get (inbox.popped c.world)).bytes = []
      rw [hpopped, ByteQueue.bytes_pop, hq]
      rfl
    | cons byte rest =>
      let taken : Chronicle σ := { c with world := inbox.popped c.world }
      let received := c.node.receive now byte taken.world
      have hrest : (inbox.get taken.world).length + 1 = (inbox.get c.world).length := by
        rw [hpopped, ByteQueue.length, ByteQueue.length, ByteQueue.bytes_pop, hq]
        rfl
      have hlength : (inbox.get received.2.2).length ≤ (inbox.get taken.world).length :=
        h.length_receive now byte taken.world
      -- A byte is taken out and none is added, so there is a look left for every byte that stays.
      have hfewer : (inbox.get received.2.2).length < looks := by omega
      obtain ⟨results, hresults, hdrain, hle, hcount, hempty⟩ :=
        ih (c := taken.receive now byte) (h.receive now byte taken.world) hfewer
      have hlater : received.2.1.drainWithin inbox now looks received.2.2 = _ := hdrain
      have hnode : received.2.1.counters.bytesReceived = c.node.counters.bytesReceived + 1 :=
        bytesReceived_receive now byte c.node taken.world
      rw [Chronicle.drain_of_cons now looks hq]
      refine ⟨received.1 :: results, ?_, ?_, ?_, ?_, hempty⟩
      · rw [hresults, Chronicle.results_receive, List.append_assoc, List.singleton_append]
      · rw [drainWithin_of_cons now looks c.node hq]
        show (received.2.1.drainWithin inbox now looks received.2.2).map _ = _
        simp only [hlater, Option.map_some, map_report, List.length_cons, report_cons]
        rfl
      · have hshorter : results.length ≤ (inbox.get received.2.2).length := hle
        rw [List.length_cons]
        omega
      · rw [hcount, show (taken.receive now byte).node.counters.bytesReceived = _ from hnode,
          List.length_cons, Nat.add_comm results.length, Nat.toUInt64_eq, Nat.toUInt64_eq,
          UInt64.ofNat_add, UInt64.add_assoc]
        rfl

theorem Ignores.get_receive (h : n.Ignores inbox) (lawful : inbox.Lawful) (node : ι) (now : Nat)
    (byte : UInt8) (w : Logged ι σ) :
    inbox.get ((n.logged node).receive now byte w).2.2.world = inbox.get w.world := by
  have hkeeps : n.Keeps node fun w' => inbox.get w'.world = inbox.get w.world := by
    refine ⟨fun s hs p _ w' hw' => ?_, fun handler hh x arrival => ?_⟩
    · exact ((h.sink s hs).get_eq lawful _ w'.world).trans hw'
    · refine ((h.handler handler hh x arrival).changes lawful).mono fun update hupdate w' hw' => ?_
      exact (hupdate w'.world).trans hw'
  exact hkeeps.receive (fun _ _ _ hw' => hw') now byte rfl

theorem drainWithin_of_rest {inbox : Place σ ByteQueue} {now looks length : Nat} {n n' : Node σ}
    {world world' : σ} {byte : UInt8} {rest : List UInt8} {later : Except BusError Unit}
    (held : (inbox.get world).bytes = byte :: rest) :
    let received := n.receive now byte (inbox.popped world)
    received.2.1.drainWithin inbox now looks received.2.2 =
        some (later.map fun _ => length, n', world') →
      n.drainWithin inbox now (looks + 1) world =
        some ((firstFailure received.1 later).map fun _ => length + 1, n', world') := by
  intro received hrest
  rw [drainWithin_of_cons now looks n held]
  simp only [received] at hrest
  simp only [hrest, Option.map_some, map_firstFailure, received]
  cases later <;> rfl

/-- Draining a buffer that nothing looks at is receiving what it holds. -/
theorem Ignores.drainWithin (h : n.Ignores inbox) (lawful : inbox.Lawful) (node : ι) (now : Nat)
    {looks : Nat} {q : ByteQueue} (held : inbox.get w.world = q) (alike : Alike inbox w w')
    (enough : q.bytes.length < looks) :
    let received := n.receiveAll now q.bytes w'.world
    let result := received.1.map fun _ => q.bytes.length
    ∃ w'', n.drainWithin inbox now looks w.world = some (result, received.2.1, w''.world) ∧
      (n.logged node).drainWithin (Logged.place.within inbox) now looks w =
        some (result, received.2.1.logged node, w'') ∧
      Alike inbox w'' ((n.logged node).receiveAll now q.bytes w').2.2 ∧
      inbox.get w''.world = q.clear := by
  induction looks generalizing n w w' q with
  | zero => omega
  | succ looks ih =>
    obtain ⟨capacity, bytes⟩ := q
    have hbytes : (inbox.get w.world).bytes = bytes := congrArg ByteQueue.bytes held
    have hlbytes : ((Logged.place.within inbox).get w).bytes = bytes := hbytes
    -- Taking a byte out of the buffer leaves the two worlds alike, and so does receiving it.
    let w₁ : Logged ι σ := { w with world := inbox.popped w.world }
    have halike : Alike inbox w₁ w' := alike.set lawful _
    have hpopped : inbox.get w₁.world = (inbox.get w.world).pop.2 := lawful.get_set _ w.world
    cases bytes with
    | nil =>
      rw [drainWithin_of_nil now looks n hbytes,
        drainWithin_of_nil now looks (n.logged node) hlbytes]
      refine ⟨w₁, rfl, rfl, halike, ?_⟩
      rw [hpopped, held]
      rfl
    | cons byte rest =>
      have hrest : inbox.get w₁.world = ⟨capacity, rest⟩ := by
        rw [hpopped, held]
        rfl
      obtain ⟨hresult, hnode, hworlds⟩ := h.receive_alike node halike now byte
      have herases := erases_receive node now byte n w₁
      have herases' := erases_receive node now byte n w'
      have hheld := h.get_receive lawful node now byte w₁
      obtain ⟨w'', hplain, hlogged, hfinal, hempty⟩ :=
        ih (h.receive now byte w'.world) (hheld.trans hrest) hworlds (by simpa using enough)
      rw [herases.world, herases'.world, ← hnode] at hplain
      rw [herases'.world, ← hnode, ← herases.node] at hlogged
      have hdrain := drainWithin_of_rest hbytes hplain
      have hldrain := drainWithin_of_rest hlbytes hlogged
      have hlresult : ((n.logged node).receive now byte ((Logged.place.within inbox).popped w)).1 =
          (n.receive now byte w'.world).1 := herases.result.trans hresult
      refine ⟨w'', ?_, ?_, ?_, hempty⟩
      · rw [hdrain]
        simp only [w₁] at hresult hnode
        simp only [receiveAll, w₁, hresult, hnode, List.length_cons]
      · rw [hldrain, hlresult]
        simp only [w₁] at hnode
        simp only [receiveAll, w₁, hnode, List.length_cons]
      · simp only [receiveAll]
        rw [herases'.node]
        exact hfinal

theorem Ignores.unfed (h : n.Ignores inbox) (lawful : inbox.Lawful) : n.Unfed inbox := by
  refine ⟨fun s hs frame world => ?_, fun handler hh x arrival => ?_⟩
  · exact Nat.le_of_eq (congrArg ByteQueue.length ((h.sink s hs).get_eq lawful frame world))
  · refine ((h.handler handler hh x arrival).changes lawful).mono fun update hupdate world => ?_
    exact Nat.le_of_eq (congrArg ByteQueue.length (hupdate world))

/-- A batch may be cut in two, and it is its bytes one after another: all of them are received,
and the first failure is reported. A buffer that is not added to meanwhile is drained to its end,
byte after byte; if what the node calls does not look into it either, draining it is receiving the
batch that it holds, with the same calls in the same order. -/
theorem batches_agree (n : Node σ) (now : Nat) (world : σ) :
    (∀ a b : List UInt8,
      let whole := (n.logged ()).receiveAll now (a ++ b) ⟨world, []⟩
      let first := (n.logged ()).receiveAll now a ⟨world, []⟩
      let second := first.2.1.receiveAll now b first.2.2
      Erases () whole (n.receiveAll now (a ++ b) world) ∧
        whole = (firstFailure first.1 second.1, second.2)) ∧
    (∀ bytes : List UInt8,
      let each := n.receiveEach (bytes.map (now, ·)) world
      n.receiveAll now bytes world = (report () each.1, each.2) ∧
        each.1.length = bytes.length ∧
        each.2.1.counters.bytesReceived = n.counters.bytesReceived + bytes.length.toUInt64 ∧
        each.2.1.assembler = (n.assembler.feedAll bytes).2) ∧
    ∀ inbox : Place σ ByteQueue, inbox.Lawful →
      let q := inbox.get world
      (n.Unfed inbox →
        let c := Chronicle.drain inbox now (q.length + 1) ⟨n, world, []⟩
        let results := c.events.filterMap Event.result?
        n.drain inbox now world = some (report results.length results, c.node, c.world) ∧
          results.length ≤ q.length ∧
          c.node.counters.bytesReceived = n.counters.bytesReceived + results.length.toUInt64 ∧
          (inbox.get c.world).bytes = []) ∧
      (n.Ignores inbox →
        let received := n.receiveAll now q.bytes world
        let result := received.1.map fun _ => q.length
        n.drain inbox now world = some (result, received.2.1, inbox.set q.clear received.2.2) ∧
        ∃ w, (n.logged ()).drain (Logged.place.within inbox) now ⟨world, []⟩ =
            some (result, received.2.1.logged (), w) ∧
          w.calls = ((n.logged ()).receiveAll now q.bytes ⟨world, []⟩).2.2.calls) := by
  refine ⟨fun a b => ⟨erases_receiveAll () now (a ++ b) n ⟨world, []⟩, ?_⟩, fun bytes => ?_,
    fun inbox lawful => ⟨fun unfed => ?_, fun ignores => ?_⟩⟩
  · exact receiveAll_append now a b (n.logged ()) ⟨world, []⟩
  · obtain ⟨counters, lastByte, hnode⟩ := receiveEach_node (bytes.map (now, ·)) n world
    have hstream : (bytes.map (now, ·)).map (·.2) = bytes := by simp [Function.comp_def]
    have hlength := length_receiveEach (bytes.map (now, ·)) n world
    have hcount := bytesReceived_receiveEach (bytes.map (now, ·)) n world
    rw [List.length_map] at hlength hcount
    refine ⟨receiveAll_report now bytes n world, hlength, hcount, ?_⟩
    rw [hnode, hstream]
  · obtain ⟨results, hresults, hdrained⟩ :=
      Unfed.drainWithin (c := ⟨n, world, []⟩) unfed lawful now (Nat.lt_succ_self _)
    rw [List.filterMap_nil, List.nil_append] at hresults
    rwa [← hresults] at hdrained
  · let w : Logged Unit σ := ⟨world, []⟩
    have held : inbox.get w.world = inbox.get world := rfl
    obtain ⟨w', hplain, hlogged, halike, hempty⟩ :=
      ignores.drainWithin lawful () now held (.refl inbox w) (Nat.lt_succ_self _)
    have herases := erases_receiveAll () now (inbox.get world).bytes n w
    have hworld : w'.world = inbox.set (inbox.get world).clear
        (n.receiveAll now (inbox.get world).bytes world).2.2 := by
      rw [← herases.world, ← halike.world, ← hempty, lawful.set_get]
    rw [hworld] at hplain
    exact ⟨hplain, w', hlogged, halike.calls⟩

/-- A handler that fails, a length above the bound and a sink that fails, all in one batch: as two
batches, and out of a buffer. -/
theorem batches_agree_three_failures :
    let inbox : Place (ByteQueue × Nat) ByteQueue := ⟨Prod.fst, fun q world => (q, world.2)⟩
    let sink : Sink (ByteQueue × Nat) := fun _ (q, calls) =>
      (if calls = 0 then .ok () else .error .queueFull, q, calls + 1)
    let handler : Handler (ByteQueue × Nat) := fun x arrival =>
      if arrival.header.opCode = 9 then .done (.error .unpackFailed) else .reply x 7 []
    let n : Node (ByteQueue × Nat) :=
      ⟨2, { payloadBound := 2 }, .withBound 2, some handler, some sink, {}, none⟩
    let a : List UInt8 := [1, 2, 9, 0, 1, 2, 4]
    let b : List UInt8 := [7, 1, 2, 5, 0, 1, 2, 6, 0]
    let world : ByteQueue × Nat := (⟨20, a ++ b⟩, 0)
    let first := (n.logged ()).receiveAll 0 a ⟨world, []⟩
    let second := first.2.1.receiveAll 0 b first.2.2
    inbox.Lawful ∧ n.Unfed inbox ∧ n.Ignores inbox ∧
      second.1 = .error (.badParam (.payloadTooLong 7 2)) ∧
      ((n.logged ()).receiveAll 0 (a ++ b) ⟨world, []⟩).1 =
        .error (.callbackFailed .unpackFailed) ∧
      (∃ results n' world', n.drain inbox 0 world =
        some (report results.length results, n', world') ∧ (inbox.get world').bytes = []) ∧
      ∃ n', n.drain inbox 0 world =
        some (.error (.callbackFailed .unpackFailed), n', (⟨20, []⟩, 2)) := by
  intro inbox sink handler n a b world first second
  have lawful : inbox.Lawful := ⟨fun _ _ => rfl, fun _ => rfl, fun _ _ _ => rfl⟩
  have ignores : n.Ignores inbox := by
    refine ⟨?_, ?_⟩
    · rintro s ⟨⟩ frame q w
      rfl
    · rintro h ⟨⟩ x arrival
      by_cases hop : arrival.header.opCode = 9
      · simp only [handler, hop, ↓reduceIte]
        trivial
      · simp only [handler, hop, ↓reduceIte]
        exact fun _ => trivial
  have unfed := ignores.unfed lawful
  obtain ⟨hcut, -, hdrain⟩ := batches_agree n 0 world
  obtain ⟨-, hwhole⟩ := hcut a b
  obtain ⟨hdrained, hreceived⟩ := hdrain inbox lawful
  obtain ⟨hemptied, -, -, hempty⟩ := hdrained unfed
  obtain ⟨hall, -⟩ := hreceived ignores
  have hfirst : first.1 = .error (.callbackFailed .unpackFailed) := rfl
  refine ⟨lawful, unfed, ignores, rfl, ?_, ⟨_, _, _, hemptied, hempty⟩, ?_⟩
  · rw [hwhole, show ((n.logged ()).receiveAll 0 a ⟨world, []⟩).1 = _ from hfirst]
    rfl
  · have hworld : inbox.set (inbox.get world).clear (n.receiveAll 0 (a ++ b) world).2.2 =
        (⟨20, []⟩, 2) := rfl
    refine ⟨(n.receiveAll 0 (a ++ b) world).2.1, hall.trans ?_⟩
    rw [hworld]
    rfl

/-- A buffer that is not added to, but that the handler empties: draining it stops behind the
first frame, where receiving the batch that it holds goes on to the second. -/
theorem drain_of_cleared :
    let handler : Handler ByteQueue := fun _ _ => .change ByteQueue.clear (.done (.ok ()))
    let n : Node ByteQueue := ⟨2, { payloadBound := 2 }, .withBound 2, some handler, none, {}, none⟩
    let inbox : Place ByteQueue ByteQueue := .whole
    let q : ByteQueue := ⟨20, [1, 2, 3, 0, 1, 2, 4, 0]⟩
    let received := n.receiveAll 0 q.bytes q
    inbox.Lawful ∧ n.Unfed inbox ∧
      received.1 = .ok () ∧ received.2.1.counters.framesDispatched = 2 ∧
      (∃ n', n.drain inbox 0 q = some (.ok 4, n', q.clear) ∧ n'.counters.framesDispatched = 1) ∧
      n.drain inbox 0 q ≠
        some (received.1.map fun _ => q.length, received.2.1, inbox.set q.clear received.2.2) := by
  intro handler n inbox q received
  have unfed : n.Unfed inbox := by
    refine ⟨nofun, ?_⟩
    rintro h ⟨⟩ x arrival
    exact ⟨fun world => Nat.zero_le _, trivial⟩
  have hdrain : ∃ n', n.drain inbox 0 q = some (.ok 4, n', q.clear) ∧
      n'.counters.framesDispatched = 1 := ⟨_, rfl, rfl⟩
  refine ⟨Place.whole_lawful, unfed, rfl, rfl, hdrain, fun agrees => ?_⟩
  obtain ⟨n', hfirst, -⟩ := hdrain
  have hcount : .ok 4 = received.1.map fun _ => q.length :=
    congrArg Prod.fst (Option.some.inj (hfirst.symm.trans agrees))
  have hheld : (received.1.map fun _ => q.length) = .ok 8 := rfl
  exact absurd (Except.ok.inj (hcount.trans hheld)) (by decide)

end Node

end TwoWire
