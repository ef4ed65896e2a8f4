import TwoWire.Proofs.ReceiveFailures

/-! Sending is all or nothing, from outside a node as from inside its handler: either nothing is
called and nothing has changed, or the sink is called once with the whole frame and its answer
comes back. -/

namespace TwoWire

variable {ι σ α β : Type}

theorem BusError.isCallbackFailed_of_mapError {result : Except BusError Unit} {e : BusError}
    (h : result.mapError BusError.ofCallback = .error e) : e.isCallbackFailed = true := by
  cases result with
  | ok _ => cases h
  | error cause =>
    cases h
    exact cause.isCallbackFailed_ofCallback

theorem transmit_of_above (sink : Option (Sink σ)) {bound : Nat} {p : Packet} (world : σ)
    (above : min bound payloadLimit < p.payload.length) :
    transmit sink bound p world =
      (.error (.badParam (.payloadTooLong p.payload.length (min bound payloadLimit))), world) := by
  simp only [transmit, Packet.frameInto_of_lt above]

theorem transmit_of_missing {bound : Nat} {p : Packet} (world : σ)
    (fits : p.payload.length ≤ min bound payloadLimit) :
    transmit none bound p world = (.error .noSink, world) := by
  obtain ⟨buffer, hinto, -⟩ := Packet.frameInto_of_le fits
  simp only [transmit, hinto]

/-- What a send may come to. With a payload above the bound it is refused, sink or no sink; then
for want of a sink; and else there is one call of the sink, with the frame of the packet. -/
structure WholeOrNothing (node : ι) (sink : Option (Sink σ)) (bound : Nat) (p : Packet)
    (w : Logged ι σ) (sent : Except BusError Unit × Logged ι σ) : Prop where
  tooLong : (∃ fault, sent.1 = .error (.badParam fault)) ↔ bound < p.payload.length
  fault_eq : ∀ fault, sent.1 = .error (.badParam fault) →
    fault = .payloadTooLong p.payload.length bound
  noSink : sent.1 = .error .noSink ↔ p.payload.length ≤ bound ∧ sink = none
  nothing : bound < p.payload.length ∨ sink = none → sent.2 = w
  whole : p.payload.length ≤ bound → ∀ s, sink = some s → ∃ frame, p.frame = .ok frame ∧
    let called := s frame w.world
    sent.1 = called.1.mapError (fun cause =>
        if cause.isCallbackFailed then cause else .callbackFailed cause) ∧
      sent.2 = ⟨called.2, w.log ++ [.sunk node frame w.world called.1]⟩

/-- A bound within the limit of the format leaves room for the whole frame in any case. -/
theorem wholeOrNothing_transmit (node : ι) (sink : Option (Sink σ)) {bound : Nat}
    (limited : bound ≤ payloadLimit) (p : Packet) (w : Logged ι σ) :
    WholeOrNothing node sink bound p w (transmit (sink.map (Sink.logged node)) bound p w) := by
  have hbound : min bound payloadLimit = bound := Nat.min_eq_left limited
  by_cases fits : p.payload.length ≤ bound
  · have notAbove : ¬ bound < p.payload.length := Nat.not_lt.mpr fits
    have hfits : p.payload.length ≤ min bound payloadLimit := by omega
    cases sink with
    | none =>
      rw [Option.map_none, transmit_of_missing w hfits]
      refine ⟨⟨?_, fun above => absurd above notAbove⟩, nofun, ⟨fun _ => ⟨fits, rfl⟩, fun _ => rfl⟩,
        fun _ => rfl, nofun⟩
      rintro ⟨_, ⟨⟩⟩
    | some s =>
      rw [Option.map_some, transmit_of_present _ w hfits]
      -- What the sink reports is wrapped when it comes back, so it is neither of the refusals.
      let called := Sink.logged node s (Arrival.ofPacket p).bytes w
      have hfails {e : BusError} (h : called.1.mapError BusError.ofCallback = .error e) :
          e.isCallbackFailed = true := BusError.isCallbackFailed_of_mapError h
      refine ⟨⟨?_, fun above => absurd above notAbove⟩, ?_, ⟨?_, nofun⟩, ?_, ?_⟩
      · rintro ⟨fault, h⟩
        cases hfails h
      · intro fault h
        cases hfails h
      · intro h
        cases hfails h
      · rintro (above | ⟨⟨⟩⟩)
        exact absurd above notAbove
      · rintro _ _ ⟨⟩
        have hwraps : BusError.ofCallback = fun cause =>
            if cause.isCallbackFailed then cause else .callbackFailed cause :=
          funext BusError.ofCallback_eq
        exact ⟨_, Packet.frame_of_le (by omega), by rw [hwraps]; rfl, rfl⟩
  · have above : bound < p.payload.length := Nat.lt_of_not_le fits
    rw [transmit_of_above _ w (by omega), hbound]
    refine ⟨⟨fun _ => above, fun _ => ⟨_, rfl⟩⟩, ?_, ⟨nofun, fun h => absurd h.1 fits⟩,
      fun _ => rfl, fun h => absurd h fits⟩
    rintro fault ⟨⟩
    rfl

theorem Reaction.logged_bind (first : Reaction σ α) (after : α → Reaction σ β) :
    ((first.bind after).logged : Reaction (Logged ι σ) β) =
      first.logged.bind fun a => (after a).logged := by
  induction first with
  | done result => rfl
  | look next ih => exact congrArg look (funext fun w => ih w.world)
  | change update next ih => exact congrArg (change _) ih
  | send p next ih => exact congrArg (Reaction.send p) (funext ih)
  | sent next ih => exact congrArg Reaction.sent (funext ih)

def Counters.ofSend (result : Except BusError Unit) (c : Counters) : Counters :=
  match result with
  | .ok () => { c with framesSent := c.framesSent + 1 }
  | .error cause =>
    if cause.isCallbackFailed then { c with callbackFailures := c.callbackFailures + 1 } else c

namespace Node

theorem send_eq (p : Packet) (n : Node σ) (world : σ) :
    n.send p world =
      let sent := transmit n.sink n.settings.payloadBound.toNat p world
      (sent.1, { n with counters := n.counters.ofSend sent.1 }, sent.2) := by
  simp only [send]
  generalize transmit n.sink n.settings.payloadBound.toNat p world = sent
  obtain ⟨cause | _, world'⟩ := sent
  · cases hc : cause.isCallbackFailed <;> simp [Counters.ofSend, hc]
  · rfl

/-- What a handler does is seen in the counters of its node only. -/
theorem receive_noted (now : Nat) (byte : UInt8) (n : Node σ) (world : σ) :
    ∃ counters, (n.receive now byte world).2.1 =
      { n.noted now with counters, assembler := (n.assembler.feed byte).2 } := by
  generalize hf : n.assembler.feed byte = fed
  obtain ⟨fault | _ | arrival, a⟩ := fed
  · rw [receive_of_fault hf]
    exact ⟨_, rfl⟩
  · rw [receive_of_more hf]
    exact ⟨_, rfl⟩
  · obtain ⟨counters, hnode, -⟩ := deliver_node arrival { n.noted now with assembler := a } world
    rw [receive_of_frame hf, hnode]
    exact ⟨counters, rfl⟩

/-- Whatever a reaction has done before it comes to a step that sends, it goes on with what that
step comes to. -/
theorem react_of_step {n : Node σ} {handler : Handler σ} {arrival : Arrival} (node : ι)
    (w : Logged ι σ) {first : Reaction σ α} {after : α → Reaction σ (Except BusError Unit)}
    {step : Reaction σ (Except BusError Unit)}
    {next : Except BusError Unit → Reaction σ (Except BusError Unit)} {p : Packet}
    (h : handler ⟨n.address, arrival.header.source⟩ arrival = first.bind after)
    (sends : Reaction.Sends ⟨n.address, arrival.header.source⟩ step p) :
    let bound := n.settings.payloadBound.toNat
    let sink := n.sink.map (Sink.logged node)
    let noted := w.note (.handled node ⟨n.address, arrival.header.source⟩ arrival)
    let ran := first.logged.run sink bound 0 noted
    after ran.1 = step.bind next →
      let sent := transmit sink bound p ran.2.2
      (n.logged node).react (handler.logged node) arrival w =
        (next sent.1).logged.run sink bound (ran.2.1 + sent.1.toBool.toNat) sent.2 := by
  intro bound sink noted ran hafter sent
  have hreact : (n.logged node).react (handler.logged node) arrival w =
      (first.bind after).logged.run sink bound 0 noted := by
    rw [← h]
    rfl
  have hstep : (step.bind next).logged =
      (Reaction.transmit p).bind fun result => (next result).logged (ι := ι) := by
    rw [sends.eq_transmit, Reaction.logged_bind]
    rfl
  rw [hreact, Reaction.logged_bind, Reaction.run_bind]
  simp only [ran] at hafter
  simp only [hafter, hstep, Reaction.run_transmit_bind]
  rfl

/-- A send is refused for a payload above the bound, else for want of a sink, and changes nothing
then. Else the sink is called once with the whole frame, and what it says comes back, a failure
wrapped unless it is wrapped already. It is the same for what a handler sends, wherever in its
reaction, from the address of the node or back to where the packet came from. Of the node nothing
but its counters is ever changed by that. -/
theorem sends_whole_or_nothing {n : Node σ} (checked : n.settings.check = .ok ())
    (w : Logged Unit σ) :
    let bound := n.settings.payloadBound.toNat
    (∀ p : Packet,
      let sent := (n.logged ()).send p w
      Erases () sent (n.send p w.world) ∧
        WholeOrNothing () n.sink bound p w (sent.1, sent.2.2) ∧
        (n.send p w.world).2.1 = { n with counters := n.counters.ofSend sent.1 }) ∧
      (∀ destination opCode payload world,
        n.sendTo destination opCode payload world =
          n.send ⟨n.address, destination, opCode, payload⟩ world) ∧
      (∀ (handler : Handler σ) (arrival : Arrival) (α : Type) (first : Reaction σ α) after step
          next p,
        let x : Exchange := ⟨n.address, arrival.header.source⟩
        let sink := n.sink.map (Sink.logged ())
        let ran := first.logged.run sink bound 0 (w.note (.handled () x arrival))
        handler x arrival = first.bind after → after ran.1 = step.bind next →
          Reaction.Sends x step p →
          ∃ sent, WholeOrNothing () n.sink bound p ran.2.2 sent ∧
            (n.logged ()).react (handler.logged ()) arrival w =
              (next sent.1).logged.run sink bound (ran.2.1 + sent.1.toBool.toNat) sent.2) ∧
      ∀ now byte world, ∃ counters, (n.receive now byte world).2.1 =
        { n.noted now with counters, assembler := (n.assembler.feed byte).2 } := by
  intro bound
  have limited : bound ≤ payloadLimit := (Settings.bound_of_check checked).2
  refine ⟨fun p => ?_, fun _ _ _ _ => rfl, ?_, fun now byte world => n.receive_noted now byte world⟩
  · intro sent
    have herases := n.erases_send () p w
    have hsent : (sent.1, sent.2.2) = transmit (n.sink.map (Sink.logged ())) bound p w := by
      simp only [sent, send_eq]
      rfl
    refine ⟨herases, ?_, ?_⟩
    · rw [hsent]
      exact wholeOrNothing_transmit () n.sink limited p w
    · rw [herases.result, send_eq]
  · intro handler arrival α first after step next p x sink ran h hafter sends
    exact ⟨_, wholeOrNothing_transmit () n.sink limited p ran.2.2,
      react_of_step () w h sends hafter⟩

/-- A payload above the bound, a sink whose failure is wrapped already, and a handler whose second
packet fails. -/
theorem sends_whole_or_nothing_second_fails :
    let flaky : Sink Nat := fun _ calls =>
      (if calls = 0 then .ok () else .error (.callbackFailed .queueFull), calls + 1)
    let answering : Handler Nat := fun x _ =>
      (Reaction.reply x 7 [4]).bind fun _ => Reaction.sendTo x 9 8 []
    let n : Node Nat :=
      ⟨2, { payloadBound := 2 }, .withBound 2, some answering, some flaky, {}, none⟩
    let arrival : Arrival := ⟨⟨1, 2, 9, 0⟩, []⟩
    let refused := (n.logged ()).send ⟨5, 1, 7, [1, 2, 3]⟩ ⟨0, []⟩
    let failed : Except BusError Unit := .error (.callbackFailed .queueFull)
    n.settings.check = .ok () ∧
      refused.1 = .error (.badParam (.payloadTooLong 3 2)) ∧ refused.2.2 = ⟨0, []⟩ ∧
      (n.logged ()).react (answering.logged ()) arrival ⟨0, []⟩ =
        (failed, 1, ⟨2, [.handled () ⟨2, 1⟩ arrival, .sunk () [2, 1, 7, 1, 4] 0 (.ok ()),
          .sunk () [2, 9, 8, 0] 1 failed]⟩) := by
  intro flaky answering n arrival refused failed
  have checked : n.settings.check = .ok () := rfl
  obtain ⟨hsends, -, hreacts, -⟩ := sends_whole_or_nothing checked ⟨0, []⟩
  obtain ⟨-, hwhole, -⟩ := hsends ⟨5, 1, 7, [1, 2, 3]⟩
  obtain ⟨fault, hfault⟩ := hwhole.tooLong.mpr (by decide)
  have hresult : refused.1 = .error (.badParam (.payloadTooLong 3 2)) :=
    hwhole.fault_eq fault hfault ▸ hfault
  obtain ⟨sent, hsent, hreact⟩ := hreacts answering arrival _ (Reaction.reply ⟨2, 1⟩ 7 [4])
    (fun _ => Reaction.sendTo ⟨2, 1⟩ 9 8 []) (Reaction.sendTo ⟨2, 1⟩ 9 8 []) .done
    ⟨2, 9, 8, []⟩ rfl rfl (.sendTo 9 8 [])
  obtain ⟨frame, hframe, hcalled, hlogged⟩ := hsent.whole (by decide) flaky rfl
  cases (Except.ok.inj hframe : [2, 9, 8, 0] = frame)
  obtain ⟨result, world⟩ := sent
  cases hcalled
  cases hlogged
  exact ⟨checked, hresult, hwhole.nothing (.inl (by decide)), hreact⟩

end Node

end TwoWire
