import TwoWire.Proofs.AssemblyBounds
import TwoWire.Proofs.Independence
import TwoWire.Proofs.RoundTrip
import TwoWire.Proofs.TransmitAccounting

/-! What receiving a byte can fail with. A length above the bound is reported as it is, and all
else comes from a handler and is wrapped once. Whichever it was, and whenever a frame is complete,
the node is between two frames again. -/

namespace TwoWire

variable {ι σ α : Type}

theorem Assembler.feed_error_iff {a : Assembler} {byte : UInt8} {fault : ParamFault} :
    (a.feed byte).1 = .error fault ↔
      a.phase = .length ∧ a.bound < byte.toNat ∧ fault = .payloadTooLong byte.toNat a.bound := by
  constructor
  · intro h
    cases hp : a.phase with
    | source | destination | opCode => simp [feed, hp] at h
    | length =>
      by_cases above : a.bound < byte.toNat
      · rw [(feed_of_above hp above).1] at h
        exact ⟨rfl, above, (Except.error.inj h).symm⟩
      · by_cases hzero : byte = 0 <;> simp [feed, hp, above, hzero] at h
    | payload =>
      by_cases hlast : a.cursor + 1 = a.header.length.toNat <;> simp [feed, hp, hlast] at h
  · rintro ⟨hp, above, rfl⟩
    exact (feed_of_above hp above).1

namespace BusError

theorem ofCallback_eq (cause : BusError) :
    cause.ofCallback = if cause.isCallbackFailed then cause else .callbackFailed cause := by
  cases cause <;> rfl

/-- A failure that passes through several callbacks is wrapped by the first of them. -/
theorem ofCallback_ofCallback (cause : BusError) :
    cause.ofCallback.ofCallback = cause.ofCallback := by
  rw [ofCallback_eq cause.ofCallback, cause.isCallbackFailed_ofCallback, if_pos rfl]

theorem exists_ofCallback (cause : BusError) :
    ∃ inner, cause.ofCallback = .callbackFailed inner := by
  cases cause <;> exact ⟨_, rfl⟩

end BusError

namespace Reaction

/-- Goes on after a step that succeeds, and ends with the failure of one that does not. -/
def orFail (step next : Reaction σ (Except BusError Unit)) : Reaction σ (Except BusError Unit) :=
  step.bind fun
    | .ok () => next
    | .error cause => done (.error cause)

/-- A step that sends a packet: as it is, from the node that reacts, or from there to the source
of what is handled. -/
inductive Sends (x : Exchange) : Reaction σ (Except BusError Unit) → Packet → Prop where
  | transmit (p : Packet) : Sends x (.transmit p) p
  | sendTo (destination opCode : UInt8) (payload : List UInt8) :
      Sends x (.sendTo x destination opCode payload) ⟨x.self, destination, opCode, payload⟩
  | reply (opCode : UInt8) (payload : List UInt8) :
      Sends x (.reply x opCode payload) ⟨x.self, x.peer, opCode, payload⟩

theorem Sends.eq_transmit {x : Exchange} {step : Reaction σ (Except BusError Unit)} {p : Packet}
    (h : Sends x step p) : step = .transmit p := by
  cases h <;> rfl

theorem run_transmit_bind (sink : Option (Sink σ)) (bound : Nat) (p : Packet)
    (next : Except BusError Unit → Reaction σ α) (count : Nat) (world : σ) :
    ((transmit p).bind next).run sink bound count world =
      let sent := TwoWire.transmit sink bound p world
      (next sent.1).run sink bound (count + sent.1.toBool.toNat) sent.2 := by
  simp only [transmit, Reaction.bind, run]
  generalize TwoWire.transmit sink bound p world = sent
  obtain ⟨cause | _, world'⟩ := sent <;> rfl

/-- Carried out from a state, a reaction comes to a step that sends a packet, and ends with the
failure of that step. -/
def Propagates (x : Exchange) (sink : Option (Sink σ)) (bound : Nat) (p : Packet)
    (world before : σ) (r : Reaction σ (Except BusError Unit)) : Prop :=
  ∃ (α : Type) (first : Reaction σ α) (after : α → Reaction σ (Except BusError Unit))
      (step next : Reaction σ (Except BusError Unit)),
    r = first.bind after ∧
      let ran := first.run sink bound 0 world
      after ran.1 = step.orFail next ∧ Sends x step p ∧ ran.2.2 = before

end Reaction

/-- Within the bound a packet goes to the sink whole, and what comes back is what the sink says. -/
theorem transmit_of_present (s : Sink σ) {bound : Nat} {p : Packet} (world : σ)
    (fits : p.payload.length ≤ min bound payloadLimit) :
    transmit (some s) bound p world =
      ((s (Arrival.ofPacket p).bytes world).1.mapError BusError.ofCallback,
        (s (Arrival.ofPacket p).bytes world).2) := by
  have ht := transmit_transmitted (some s) bound p world
  generalize transmit (some s) bound p world = t at ht
  cases ht with
  | tooLong above => omega
  | noSink _ missing => cases missing
  | accepted _ present call | failed _ present call =>
    cases present
    rw [call]
    rfl

namespace Node

/-- A byte completes a frame that passes the filter and comes to a handler. -/
structure Dispatches (n : Node σ) (byte : UInt8) (handler : Handler σ) (arrival : Arrival) :
    Prop where
  completed : (n.assembler.feed byte).1 = .ok (some arrival)
  accepted : n.accepts arrival = true
  present : n.handler = some handler

theorem deliver_error_iff {n : Node σ} {arrival : Arrival} {world : σ} {e : BusError} :
    (n.deliver arrival world).1 = .error e ↔
      ∃ handler cause, n.accepts arrival = true ∧ n.handler = some handler ∧
        (n.react handler arrival world).1 = .error cause ∧ e = cause.ofCallback := by
  constructor
  · intro h
    cases ha : n.accepts arrival with
    | false =>
      rw [deliver_of_refused ha] at h
      cases h
    | true =>
      rcases n.handler.eq_none_or_eq_some with hh | ⟨handler, hh⟩
      · rw [deliver_of_unhandled ha hh] at h
        cases h
      · simp only [deliver_of_handled ha hh] at h
        cases hreact : (n.react handler arrival world).1 with
        | ok _ =>
          rw [hreact] at h
          cases h
        | error cause =>
          rw [hreact] at h
          exact ⟨handler, cause, rfl, hh, hreact, (Except.error.inj h).symm⟩
  · rintro ⟨handler, cause, ha, hh, hreact, rfl⟩
    simp only [deliver_of_handled ha hh, hreact]
    rfl

theorem receive_error_iff {n : Node σ} {now : Nat} {byte : UInt8} {world : σ} {e : BusError} :
    (n.receive now byte world).1 = .error e ↔
      (n.assembler.phase = .length ∧ n.assembler.bound < byte.toNat ∧
        e = .badParam (.payloadTooLong byte.toNat n.assembler.bound)) ∨
      ∃ handler arrival cause, n.Dispatches byte handler arrival ∧
        (n.react handler arrival world).1 = .error cause ∧ e = cause.ofCallback := by
  have hrefused {fault : ParamFault} :
      (n.assembler.feed byte).1 = .error fault ↔ _ := Assembler.feed_error_iff
  generalize hf : n.assembler.feed byte = fed at hrefused
  obtain ⟨fault | _ | arrival, a⟩ := fed
  · obtain ⟨hp, above, rfl⟩ := hrefused.mp rfl
    rw [receive_of_fault hf]
    constructor
    · rintro ⟨⟩
      exact .inl ⟨hp, above, rfl⟩
    · rintro (⟨-, -, rfl⟩ | ⟨_, _, _, hd, -⟩)
      · rfl
      · have hcompleted := hd.completed
        rw [hf] at hcompleted
        cases hcompleted
  · rw [receive_of_more hf]
    constructor
    · rintro ⟨⟩
    · rintro (⟨hp, above, -⟩ | ⟨_, _, _, hd, -⟩)
      · cases hrefused.mpr ⟨hp, above, rfl⟩
      · have hcompleted := hd.completed
        rw [hf] at hcompleted
        cases hcompleted
  · rw [receive_of_frame hf, deliver_error_iff]
    constructor
    · rintro ⟨handler, cause, ha, hh, hreact, rfl⟩
      exact .inr ⟨handler, arrival, cause, ⟨by rw [hf], ha, hh⟩, hreact, rfl⟩
    · rintro (⟨hp, above, -⟩ | ⟨handler, other, cause, hd, hreact, rfl⟩)
      · cases hrefused.mpr ⟨hp, above, rfl⟩
      · have hcompleted := hd.completed
        rw [hf] at hcompleted
        cases hcompleted
        exact ⟨handler, cause, hd.accepted, hd.present, hreact, rfl⟩

theorem react_of_propagates {n : Node σ} {handler : Handler σ} {arrival : Arrival} {p : Packet}
    {world before : σ} {s : Sink σ} {cause : BusError}
    (propagates : (handler (n.call arrival).1 arrival).Propagates (n.call arrival).1 n.sink
      n.settings.payloadBound.toNat p world before)
    (fits : p.payload.length ≤ min n.settings.payloadBound.toNat payloadLimit)
    (present : n.sink = some s) (fails : (s (Arrival.ofPacket p).bytes before).1 = .error cause) :
    (n.react handler arrival world).1 = .error cause.ofCallback := by
  obtain ⟨α, first, goes, step, next, hsplit, hgoes, hsends, rfl⟩ := propagates
  have hreact : n.react handler arrival world =
      (first.bind goes).run n.sink n.settings.payloadBound.toNat 0 world := by
    rw [← hsplit]
    rfl
  rw [hreact, Reaction.run_bind]
  generalize first.run n.sink n.settings.payloadBound.toNat 0 world = ran at hgoes fails ⊢
  have hsent : transmit n.sink n.settings.payloadBound.toNat p ran.2.2 =
      (.error cause.ofCallback, (s (Arrival.ofPacket p).bytes ran.2.2).2) := by
    rw [present, transmit_of_present s ran.2.2 fits, fails]
    rfl
  simp only [hgoes, hsends.eq_transmit, Reaction.orFail, Reaction.run_transmit_bind, hsent]
  rfl

/-- Between two frames, with every frame within the bound completed if it comes next: by its last
byte, which also calls the handler if the frame is for it. -/
structure Ready (n : Node σ) : Prop where
  idle : n.assembler.phase = .source
  cursor : n.assembler.cursor = 0
  completes : ∀ p : Packet, p.payload.length ≤ n.settings.payloadBound.toNat →
    ∃ frame, p.frame = .ok frame ∧
      let fed := n.assembler.feedAll frame
      Assembler.occurrences 0 fed.1 = [(frame.length - 1, .ok (Arrival.ofPacket p))] ∧
        fed.2.phase = .source ∧
        ∀ (stream : List (Nat × UInt8)) (w : Logged Unit σ), stream.map (·.2) = frame →
          handled () ((n.logged ()).receiveEach stream w).2.2.log =
            handled () w.log ++
              if n.handles (Arrival.ofPacket p) then [n.call (Arrival.ofPacket p)] else []

theorem ready_of_idle {n : Node σ} (sound : n.assembler.Sound)
    (bound_eq : n.assembler.bound = n.settings.payloadBound.toNat)
    (idle : n.assembler.phase = .source) : n.Ready := by
  have hlimit := sound.bound_le
  refine ⟨idle, sound.cursor_eq (by simp [idle]), fun p short => ?_⟩
  have fits : p.payload.length ≤ min n.assembler.bound payloadLimit := by omega
  have honly : ∀ q ∈ [p], q.payload.length ≤ min n.assembler.bound payloadLimit := by
    simpa using fits
  have hcut : Piece.cut n.assembler.bound (Arrival.ofPacket p).bytes =
      ([.frame (Arrival.ofPacket p)], []) := by
    simpa using cut_frames honly
  obtain ⟨hresults, hpending, hsound, -⟩ :=
    sound.feedAll_of_idle idle (Arrival.ofPacket p).bytes
  rw [hcut] at hresults hpending
  have hprogress := hsound.progress_pending
  rw [hpending] at hprogress
  have hfed : (n.assembler.feedAll (Arrival.ofPacket p).bytes).1 =
      (Piece.frame (Arrival.ofPacket p)).results n.assembler.bound := by
    simpa [Piece.streamResults] using hresults
  have hidle : (n.assembler.feedAll (Arrival.ofPacket p).bytes).2.phase = .source :=
    (congrArg Prod.fst hprogress).symm
  have hframe : p.frame = .ok (Arrival.ofPacket p).bytes := Packet.frame_of_le (by omega)
  refine ⟨_, hframe, ?_, hidle, ?_⟩
  · rw [hfed, Assembler.occurrences_results, Nat.zero_add]
    rfl
  · intro stream w hstream
    rw [handled_receiveEach, hstream, hresults, Assembler.completed_streamResults]
    cases hh : n.handles (Arrival.ofPacket p) <;> simp [Piece.arrival?, hh]

theorem Reachable.receiveEach {address : UInt8} {settings : Settings} {n : Node σ}
    (reached : n.Reachable address settings) (stream : List (Nat × UInt8)) (world : σ) :
    (n.receiveEach stream world).2.1.Reachable address settings := by
  induction stream generalizing n world with
  | nil => exact reached
  | cons x rest ih => exact ih (reached.receive x.1 x.2 world) _

theorem Reachable.ready {address : UInt8} {settings : Settings} {n : Node σ}
    (reached : n.Reachable address settings) (idle : n.assembler.phase = .source) : n.Ready := by
  obtain ⟨sound, hbound⟩ := reached.assembler_bound
  obtain ⟨-, hsettings, -⟩ := reached.setup
  exact ready_of_idle sound (by rw [hbound, hsettings]) idle

/-- A byte that fails and a byte that completes a frame both end the frame in progress. -/
theorem idle_of_ended {n : Node σ} (sound : n.assembler.Sound) {now : Nat} {byte : UInt8}
    {world : σ}
    (ended : (∃ cause, (n.receive now byte world).1 = .error cause) ∨
      ∃ arrival, (n.assembler.feed byte).1 = .ok (some arrival)) :
    (n.receive now byte world).2.1.assembler.phase = .source := by
  obtain ⟨counters, lastByte, hnode⟩ := receive_node now byte n world
  rw [hnode]
  have hfed := sound.feed byte
  generalize hf : n.assembler.feed byte = fed at hfed ended
  cases hfed with
  | more =>
    rw [receive_of_more hf] at ended
    obtain ⟨_, h⟩ | ⟨_, h⟩ := ended <;> cases h
  | frame _ _ idle => exact idle
  | refused _ _ idle => exact idle

/-- A byte fails with a bare parameter fault if it is a length above the bound, with a callback's
failure if it completes a frame for a handler that fails, and with nothing else. What the handler
reports is wrapped unless it is wrapped already, so a failure of the sink that the handler passes
on comes out wrapped once. After a failure, and after a complete frame, the next frame within the
bound is completed, whatever came before. -/
theorem receive_failures {address : UInt8} {settings : Settings} {n : Node σ}
    (reached : n.Reachable address settings) (now : Nat) (byte : UInt8) (world : σ) :
    let bound := settings.payloadBound.toNat
    let received := n.receive now byte world
    ((∃ fault, received.1 = .error (.badParam fault)) ↔
        n.assembler.phase = .length ∧ bound < byte.toNat) ∧
      ((∃ cause, received.1 = .error (.callbackFailed cause)) ↔
        ∃ handler arrival cause, n.Dispatches byte handler arrival ∧
          (n.react handler arrival world).1 = .error cause) ∧
      (∀ cause, received.1 = .error cause →
        cause = .badParam (.payloadTooLong byte.toNat bound) ∨ cause.isCallbackFailed = true) ∧
      (∀ handler arrival, n.Dispatches byte handler arrival →
        (∀ cause, (n.react handler arrival world).1 = .error cause →
          received.1 = .error (if cause.isCallbackFailed then cause else .callbackFailed cause)) ∧
        ∀ p frame before s cause,
          (handler (n.call arrival).1 arrival).Propagates (n.call arrival).1 n.sink bound p world
              before →
            p.frame = .ok frame → p.payload.length ≤ bound → n.sink = some s →
            (s frame before).1 = .error cause →
            received.1 =
              .error (if cause.isCallbackFailed then cause else .callbackFailed cause)) ∧
      ((∃ cause, received.1 = .error cause) ∨
          (∃ arrival, (n.assembler.feed byte).1 = .ok (some arrival)) →
        received.2.1.Ready) := by
  intro bound received
  obtain ⟨sound, hbound⟩ := reached.assembler_bound
  obtain ⟨-, rfl, hcheck, -⟩ := reached.setup
  have hlimit := (Settings.bound_of_check hcheck).2
  have hwrapped : ∀ handler arrival, n.Dispatches byte handler arrival → ∀ cause,
      (n.react handler arrival world).1 = .error cause → received.1 = .error cause.ofCallback :=
    fun handler arrival hd cause hreact =>
      receive_error_iff.mpr (.inr ⟨handler, arrival, cause, hd, hreact, rfl⟩)
  have hclassified {e : BusError} : received.1 = .error e ↔ _ := receive_error_iff
  rw [hbound] at hclassified
  refine ⟨⟨?_, ?_⟩, ⟨?_, ?_⟩, ?_, fun handler arrival hd => ⟨?_, ?_⟩, ?_⟩
  · rintro ⟨fault, h⟩
    obtain ⟨hp, above, -⟩ | ⟨_, _, cause, -, -, he⟩ := hclassified.mp h
    · exact ⟨hp, above⟩
    · exact absurd he.symm (cause.ofCallback_ne_badParam fault)
  · rintro ⟨hp, above⟩
    exact ⟨_, hclassified.mpr (.inl ⟨hp, above, rfl⟩)⟩
  · rintro ⟨inner, h⟩
    obtain ⟨-, -, he⟩ | ⟨handler, arrival, cause, hd, hreact, -⟩ := hclassified.mp h
    · cases he
    · exact ⟨handler, arrival, cause, hd, hreact⟩
  · rintro ⟨handler, arrival, cause, hd, hreact⟩
    obtain ⟨inner, hinner⟩ := cause.exists_ofCallback
    exact ⟨inner, hinner ▸ hwrapped handler arrival hd cause hreact⟩
  · intro e h
    obtain ⟨-, -, rfl⟩ | ⟨_, _, cause, -, -, rfl⟩ := hclassified.mp h
    · exact .inl rfl
    · exact .inr cause.isCallbackFailed_ofCallback
  · intro cause hreact
    rw [← BusError.ofCallback_eq]
    exact hwrapped handler arrival hd cause hreact
  · intro p frame before s cause propagates hframe short present hcall
    have fits : p.payload.length ≤ min n.settings.payloadBound.toNat payloadLimit := by omega
    have hbytes : (Arrival.ofPacket p).bytes = frame :=
      Except.ok.inj ((Packet.frame_of_le (by omega)).symm.trans hframe)
    rw [← hbytes] at hcall
    have hreact := react_of_propagates propagates fits present hcall
    -- The reply has wrapped what the sink reported, so the node finds it wrapped already.
    rw [← BusError.ofCallback_eq, ← BusError.ofCallback_ofCallback]
    exact hwrapped handler arrival hd _ hreact
  · intro ended
    exact (reached.receive now byte world).ready (idle_of_ended sound ended)

/-- A handler answers the frame that an empty payload completes, and passes on that the sink is
full. Then a frame with a payload comes. -/
theorem receive_failures_full_sink :
    let full : Sink Nat := fun _ calls => (.error .queueFull, calls + 1)
    let answering : Handler Nat := fun x _ => (Reaction.reply x 7 [4]).orFail (.done (.ok ()))
    let fresh : Node Nat :=
      ⟨2, { payloadBound := 2 }, .withBound 2, some answering, some full, {}, none⟩
    let n := (fresh.receiveEach [(0, 1), (1, 2), (2, 9)] 0).2.1
    let received := n.receive 3 0 0
    n.Reachable 2 { payloadBound := 2 } ∧
      n.Dispatches 0 answering ⟨⟨1, 2, 9, 0⟩, []⟩ ∧
      received.1 = .error (.callbackFailed .queueFull) ∧ received.2.2 = 1 ∧
      (∀ fault, received.1 ≠ .error (.badParam fault)) ∧
      Assembler.occurrences 0 (received.2.1.assembler.feedAll [1, 2, 5, 1, 7]).1 =
        [(4, .ok ⟨⟨1, 2, 5, 1⟩, [7]⟩)] := by
  intro full answering fresh n received
  have hcreate : create 2 { payloadBound := 2 } =
    .ok ({ fresh with handler := none, sink := none } : Node Nat) := rfl
  have hfresh : fresh.Reachable 2 { payloadBound := 2 } :=
    .withSink (some full) (.withHandler (some answering) (.created hcreate))
  have reached : n.Reachable 2 { payloadBound := 2 } := hfresh.receiveEach _ 0
  have hd : n.Dispatches 0 answering ⟨⟨1, 2, 9, 0⟩, []⟩ := ⟨rfl, rfl, rfl⟩
  obtain ⟨hfault, -, -, hhandler, hready⟩ := receive_failures reached 3 0 0
  have hpropagates : (answering ⟨2, 1⟩ ⟨⟨1, 2, 9, 0⟩, []⟩).Propagates ⟨2, 1⟩ n.sink 2
      ⟨2, 1, 7, [4]⟩ 0 0 :=
    ⟨Unit, .done (), fun _ => answering ⟨2, 1⟩ ⟨⟨1, 2, 9, 0⟩, []⟩, _, _, rfl, rfl, .reply 7 [4],
      rfl⟩
  have hresult : received.1 = .error (.callbackFailed .queueFull) :=
    (hhandler answering _ hd).2 ⟨2, 1, 7, [4]⟩ [2, 1, 7, 1, 4] 0 full .queueFull hpropagates rfl
      (by decide) rfl rfl
  obtain ⟨frame, hframe, hcompleted, -⟩ :=
    (hready (.inl ⟨_, hresult⟩)).completes ⟨1, 2, 5, [7]⟩ (by decide)
  cases (Except.ok.inj hframe : [1, 2, 5, 1, 7] = frame)
  have hcalled : received.2.2 = 1 := by decide +kernel
  refine ⟨reached, hd, hresult, hcalled, fun fault h => ?_, hcompleted⟩
  obtain ⟨-, above⟩ := hfault.mp ⟨fault, h⟩
  exact absurd above (by decide)

end Node

end TwoWire
