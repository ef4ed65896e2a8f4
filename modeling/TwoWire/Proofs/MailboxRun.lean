import TwoWire.Mailbox
import TwoWire.Proofs.TransmitAccounting

/-! A node that keeps its packets in a mailbox, and somebody who takes them out. What is in
the box and what was taken is told by the bytes received, read as a stream, and by the
result that each of them had. -/

namespace TwoWire

variable {σ : Type}

namespace Node

/-- What a byte leaves in a mailbox: the packet of the frame it completes, if the filter lets
the frame pass and no failure is reported. -/
def kept? (n : Node σ) : Except ParamFault (Option Arrival) × Except BusError Unit → Option Packet
  | (.ok (some arrival), .ok ()) => if n.accepts arrival then some arrival.packet else none
  | _ => none

def kept (n : Node σ) (brought : List (Except ParamFault (Option Arrival)))
    (results : List (Except BusError Unit)) : List Packet :=
  (brought.zip results).filterMap n.kept?

theorem kept_concat (n : Node σ) {brought : List (Except ParamFault (Option Arrival))}
    {results : List (Except BusError Unit)} (h : brought.length = results.length)
    (last : Except ParamFault (Option Arrival)) (result : Except BusError Unit) :
    n.kept (brought ++ [last]) (results ++ [result]) =
      n.kept brought results ++ (n.kept? (last, result)).toList := by
  rw [kept, List.zip_append h, List.filterMap_append]
  cases hlast : n.kept? (last, result) <;> simp [kept, hlast]

/-- What a byte can come to at a node with a mailbox: it completes no frame that the filter
lets pass, or its packet goes into the box, or the box is full or nobody takes from it. -/
inductive Posted (box : Place σ (Channel Packet)) (n : Node σ) (world : σ)
    (brought : Except ParamFault (Option Arrival)) : Except BusError Unit × Node σ × σ → Prop where
  | passed {n' : Node σ}
      (none_accepted : ∀ arrival, brought = .ok (some arrival) → n.accepts arrival = false)
      (dispatched : n'.counters.framesDispatched = n.counters.framesDispatched)
      (failures : n'.counters.callbackFailures = n.counters.callbackFailures) :
      Posted box n world brought (resultOf brought, n', world)
  | kept {n' : Node σ} {arrival : Arrival} (completed : brought = .ok (some arrival))
      (accepted : n.accepts arrival = true) (receiving : (box.get world).receiving = true)
      (room : (box.get world).queued.length < (box.get world).capacity)
      (dispatched : n'.counters.framesDispatched = n.counters.framesDispatched + 1)
      (failures : n'.counters.callbackFailures = n.counters.callbackFailures) :
      Posted box n world brought (.ok (), n',
        box.set { box.get world with queued := (box.get world).queued ++ [arrival.packet] } world)
  | refused {n' : Node σ} {arrival : Arrival} {fault : ChannelFault}
      (completed : brought = .ok (some arrival)) (accepted : n.accepts arrival = true)
      (why : (fault = .full ∧ (box.get world).receiving = true ∧
          ¬(box.get world).queued.length < (box.get world).capacity) ∨
        (fault = .closed ∧ (box.get world).receiving = false))
      (dispatched : n'.counters.framesDispatched = n.counters.framesDispatched + 1)
      (failures : n'.counters.callbackFailures = n.counters.callbackFailures + 1) :
      Posted box n world brought (.error (.callbackFailed (.ofChannel fault)), n', world)

theorem react_mailbox (box : Place σ (Channel Packet)) (arrival : Arrival) (n : Node σ)
    (world : σ) :
    n.react (mailbox box) arrival world =
      let offered := (box.get world).offer arrival.packet
      (offered.1.mapError BusError.ofChannel, 0, box.set offered.2 world) := rfl

theorem receive_mailbox {box : Place σ (Channel Packet)} (lawful : box.Lawful) {n : Node σ}
    (present : n.handler = some (mailbox box)) (now : Nat) (byte : UInt8) (world : σ) :
    n.Posted box world (n.assembler.feed byte).1 (n.receive now byte world) := by
  generalize h : n.assembler.feed byte = fed
  obtain ⟨fault | _ | arrival, a⟩ := fed
  · rw [receive_of_fault h]
    exact .passed nofun rfl rfl
  · rw [receive_of_more h]
    exact .passed nofun rfl rfl
  · rw [receive_of_frame h]
    by_cases accepted : n.accepts arrival = true
    · rw [deliver_of_handled (n := { n.noted now with assembler := a }) accepted present,
        react_mailbox]
      by_cases hreceiving : (box.get world).receiving = true
      · by_cases hroom : (box.get world).queued.length < (box.get world).capacity
        · rw [Channel.offer_of_room hreceiving hroom]
          exact .kept rfl accepted hreceiving hroom rfl rfl
        · simp only [Channel.offer_of_full hreceiving hroom, lawful.set_get]
          exact .refused rfl accepted (.inl ⟨rfl, hreceiving, hroom⟩) rfl rfl
      · have hclosed : (box.get world).receiving = false := Bool.eq_false_iff.mpr hreceiving
        simp only [Channel.offer_of_closed hclosed, lawful.set_get]
        exact .refused rfl accepted (.inr ⟨rfl, hclosed⟩) rfl rfl
    · have hrefused : n.accepts arrival = false := Bool.eq_false_iff.mpr accepted
      rw [deliver_of_refused (n := { n.noted now with assembler := a }) hrefused]
      refine .passed (fun other hother => ?_) rfl rfl
      cases hother
      exact hrefused

namespace Posted

variable {box : Place σ (Channel Packet)} {n n' : Node σ} {world world' : σ}
  {brought : Except ParamFault (Option Arrival)} {result : Except BusError Unit}

theorem kept?_of_passed
    (none_accepted : ∀ arrival, brought = .ok (some arrival) → n.accepts arrival = false) :
    n.kept? (brought, resultOf brought) = none := by
  match brought with
  | .error _ | .ok none => rfl
  | .ok (some arrival) => simp [kept?, resultOf, none_accepted arrival rfl]

/-- The box gets what is kept behind what it holds, and only while it has room. -/
theorem channel (lawful : box.Lawful) (h : n.Posted box world brought (result, n', world')) :
    box.get world' = { box.get world with
      queued := (box.get world).queued ++ (n.kept? (brought, result)).toList } ∧
    ((n.kept? (brought, result)).toList ≠ [] → (box.get world).receiving = true ∧
      (box.get world).queued.length < (box.get world).capacity) := by
  cases h with
  | passed none_accepted =>
    rw [kept?_of_passed none_accepted]
    simp
  | kept completed accepted receiving room =>
    simp [lawful.get_set, kept?, completed, accepted, receiving, room]
  | refused => simp [kept?]

theorem counters (h : n.Posted box world brought (result, n', world')) :
    n'.counters.framesDispatched = n.counters.framesDispatched +
      ((n.kept? (brought, result)).toList.length + [result].countP callbackFails).toUInt64 ∧
    n'.counters.callbackFailures =
      n.counters.callbackFailures + ([result].countP callbackFails).toUInt64 := by
  cases h with
  | passed none_accepted dispatched failures =>
    have hfails : callbackFails (resultOf brought) = false := by
      cases brought <;> rfl
    rw [kept?_of_passed none_accepted, dispatched, failures]
    simp [hfails]
  | kept completed accepted receiving room dispatched failures =>
    simp [kept?, completed, accepted, dispatched, failures, callbackFails]
  | refused completed accepted why dispatched failures =>
    simp [kept?, dispatched, failures, callbackFails, BusError.isCallbackFailed]

/-- A completed frame that the filter lets pass fails exactly when its packet has no place,
and then leaves everything as it is. -/
theorem answer (lawful : box.Lawful) {arrival : Arrival} (accepted : n.accepts arrival = true)
    (hle : (box.get world).queued.length ≤ (box.get world).capacity)
    (h : n.Posted box world (.ok (some arrival)) (result, n', world')) :
    ((box.get world).receiving = true →
      (result = .error (.callbackFailed .queueFull) ↔
        (box.get world).queued.length = (box.get world).capacity) ∧
      ((box.get world).queued.length = (box.get world).capacity → world' = world) ∧
      ((box.get world).queued.length < (box.get world).capacity → result = .ok () ∧
        (box.get world').queued = (box.get world).queued ++ [arrival.packet])) ∧
    ((box.get world).receiving = false →
      result = .error (.callbackFailed .channelClosed) ∧ world' = world) := by
  cases h with
  | passed none_accepted => simp [none_accepted arrival rfl] at accepted
  | kept completed _ receiving room =>
    cases completed
    refine ⟨fun _ => ⟨⟨nofun, fun hfull => ?_⟩, fun hfull => ?_, fun _ => ⟨rfl, ?_⟩⟩, ?_⟩
    · omega
    · omega
    · rw [lawful.get_set]
    · simp [receiving]
  | refused _ _ why =>
    obtain ⟨rfl, receiving, full⟩ | ⟨rfl, receiving⟩ := why
    · refine ⟨fun _ => ⟨⟨fun _ => ?_, fun _ => rfl⟩, fun _ => rfl, fun room => ?_⟩, ?_⟩
      · omega
      · exact absurd room full
      · simp [receiving]
    · simp [receiving, BusError.ofChannel]

end Posted

end Node

/-- What can happen to a node with a mailbox: a byte comes, somebody takes a packet out of
the box, or goes away for good. -/
inductive Mailbox.Move where
  | byte (now : Nat) (byte : UInt8)
  | take
  | close

/-- A node with a mailbox, the bytes it has received with their results, and the packets
taken out of the box. -/
structure Collection (σ : Type) where
  node : Node σ
  world : σ
  received : List UInt8 := []
  results : List (Except BusError Unit) := []
  taken : List Packet := []

namespace Collection

def step (box : Place σ (Channel Packet)) (c : Collection σ) : Mailbox.Move → Collection σ
  | .byte now byte =>
    let (result, node, world) := c.node.receive now byte c.world
    { c with node, world, received := c.received ++ [byte], results := c.results ++ [result] }
  | .take =>
    match (box.get c.world).take with
    | (.item packet, channel) =>
      { c with world := box.set channel c.world, taken := c.taken ++ [packet] }
    | _ => c
  | .close => { c with world := box.set (box.get c.world).close c.world }

def run (box : Place σ (Channel Packet)) (c : Collection σ) (moves : List Mailbox.Move) :
    Collection σ :=
  moves.foldl (step box) c

theorem step_take (box : Place σ (Channel Packet)) (c : Collection σ) :
    c.step box .take = c ∨
      ∃ packet rest, (box.get c.world).queued = packet :: rest ∧ c.step box .take = { c with
        world := box.set { box.get c.world with queued := rest } c.world
        taken := c.taken ++ [packet] } := by
  cases hqueued : (box.get c.world).queued with
  | nil =>
    left
    by_cases hsenders : (box.get c.world).senders = 0 <;>
      simp [step, Channel.take, hqueued, hsenders]
  | cons packet rest => exact .inr ⟨packet, rest, rfl, by simp [step, Channel.take, hqueued]⟩

/-- Handler failures among the results. -/
def failures (c : Collection σ) : Nat :=
  c.results.countP callbackFails

/-- Each packet kept was taken or is in the box, unless it went with the receiver, and the
node has counted it or its failure. -/
structure Settled (start : Node σ) (box : Place σ (Channel Packet)) (capacity : Nat)
    (c : Collection σ) : Prop where
  node : ∃ counters lastByte, c.node =
    { start with counters, lastByte, assembler := (start.assembler.feedAll c.received).2 }
  results : (start.assembler.feedAll c.received).1.length = c.results.length
  kept : ∃ lost, start.kept (start.assembler.feedAll c.received).1 c.results =
    c.taken ++ (box.get c.world).queued ++ lost ∧
      ((box.get c.world).receiving = true → lost = [])
  capacity_eq : (box.get c.world).capacity = capacity
  queued_le : (box.get c.world).queued.length ≤ capacity
  dispatched : c.node.counters.framesDispatched =
    ((start.kept (start.assembler.feedAll c.received).1 c.results).length + c.failures).toUInt64
  failed : c.node.counters.callbackFailures = c.failures.toUInt64

namespace Settled

theorem empty {address : UInt8} {settings : Settings} {box : Place σ (Channel Packet)}
    {sink : Option (Sink σ)} {start : Node σ} {capacity : Nat} {channel : Channel Packet}
    {world : σ}
    (made : Node.build (some address) settings (some (mailbox box)) sink = .ok start)
    (opened : Channel.ofCapacity? capacity = some channel) (placed : box.get world = channel) :
    Settled start box capacity ⟨start, world, [], [], []⟩ := by
  obtain ⟨-, hstart⟩ := Node.build_ok made
  have hchannel := Channel.eq_of_ofCapacity? opened
  subst hstart hchannel
  refine ⟨⟨_, _, rfl⟩, rfl, ⟨[], ?_, fun _ => rfl⟩, ?_, ?_, rfl, rfl⟩
  · rw [placed]
    rfl
  · rw [placed]
  · rw [placed]
    exact Nat.zero_le _

variable {start : Node σ} {box : Place σ (Channel Packet)} {capacity : Nat} {c : Collection σ}

theorem posted (lawful : box.Lawful) (present : start.handler = some (mailbox box))
    (h : c.Settled start box capacity) (now : Nat) (byte : UInt8) :
    c.node.Posted box c.world (c.node.assembler.feed byte).1
      (c.node.receive now byte c.world) := by
  obtain ⟨counters, lastByte, hnode⟩ := h.node
  have hpresent : c.node.handler = some (mailbox box) := by rw [hnode]; exact present
  exact Node.receive_mailbox lawful hpresent now byte c.world

theorem byte (lawful : box.Lawful) (present : start.handler = some (mailbox box))
    (h : c.Settled start box capacity) (now : Nat) (byte : UInt8) :
    (c.step box (.byte now byte)).Settled start box capacity := by
  obtain ⟨counters, lastByte, hnode⟩ := h.node
  obtain ⟨lost, hkept, hlost⟩ := h.kept
  have hassembler : c.node.assembler = (start.assembler.feedAll c.received).2 := by rw [hnode]
  have hkeeps : c.node.kept? = start.kept? := by rw [hnode]; rfl
  have hposted := h.posted lawful present now byte
  obtain ⟨counters', lastByte', hreceive⟩ := c.node.receive_node now byte c.world
  have hstep : c.step box (.byte now byte) = { c with
    node := (c.node.receive now byte c.world).2.1
    world := (c.node.receive now byte c.world).2.2
    received := c.received ++ [byte]
    results := c.results ++ [(c.node.receive now byte c.world).1] } := rfl
  have hfed := Assembler.feedAll_concat c.received byte start.assembler
  simp only [← hassembler] at hfed
  rw [hstep]
  generalize c.node.receive now byte c.world = answer at hposted hreceive ⊢
  obtain ⟨result, node', world'⟩ := answer
  obtain ⟨hchannel, hroom⟩ := hposted.channel lawful
  obtain ⟨hdispatched, hfailed⟩ := hposted.counters
  have hmore := start.kept_concat h.results (c.node.assembler.feed byte).1 result
  rw [hkeeps] at hchannel hroom hdispatched
  have hone := (start.kept? ((c.node.assembler.feed byte).1, result)).length_toList_le
  generalize (start.kept? ((c.node.assembler.feed byte).1, result)).toList = packet
    at hchannel hroom hdispatched hmore hone
  have hle := h.queued_le
  have hcapacity := h.capacity_eq
  simp only at hreceive
  refine ⟨⟨counters', lastByte', ?_⟩, ?_, ?_, ?_, ?_, ?_, ?_⟩ <;>
    simp only [hfed, Collection.failures, List.countP_append]
  · rw [hreceive, hnode]
  · simp [h.results]
  · rw [hmore, hkept, hchannel]
    by_cases hnone : packet = []
    · exact ⟨lost, by simp [hnone], hlost⟩
    · have hnil := hlost (hroom hnone).1
      exact ⟨[], by simp [hnil], fun _ => rfl⟩
  · rw [hchannel]
    exact hcapacity
  · rw [hchannel]
    by_cases hnone : packet = []
    · simpa [hnone] using hle
    · have hlt := (hroom hnone).2
      simp only [List.length_append]
      omega
  · rw [hdispatched, h.dispatched, hmore, Collection.failures, List.length_append]
    simp only [Nat.toUInt64_eq, ← UInt64.ofNat_add]
    congr 1
    omega
  · rw [hfailed, h.failed, Collection.failures]
    simp only [Nat.toUInt64_eq, UInt64.ofNat_add]

theorem take (lawful : box.Lawful) (h : c.Settled start box capacity) :
    (c.step box .take).Settled start box capacity := by
  rcases step_take box c with hsame | ⟨packet, rest, hqueued, hstep⟩
  · rwa [hsame]
  · obtain ⟨lost, hkept, hlost⟩ := h.kept
    have hle := h.queued_le
    rw [hqueued, List.length_cons] at hle
    rw [hstep]
    refine ⟨h.node, h.results, ⟨lost, ?_, ?_⟩, ?_, ?_, h.dispatched, h.failed⟩
    · rw [lawful.get_set, hkept, hqueued]
      simp
    · rw [lawful.get_set]
      exact hlost
    · rw [lawful.get_set]
      exact h.capacity_eq
    · rw [lawful.get_set]
      exact Nat.le_of_succ_le hle

theorem close (lawful : box.Lawful) (h : c.Settled start box capacity) :
    (c.step box .close).Settled start box capacity := by
  obtain ⟨lost, hkept, -⟩ := h.kept
  refine ⟨h.node, h.results, ⟨(box.get c.world).queued ++ lost, ?_, ?_⟩, ?_, ?_, h.dispatched,
    h.failed⟩
  · rw [step, lawful.get_set, hkept, Channel.close]
    simp
  · simp [step, lawful.get_set, Channel.close]
  · rw [step, lawful.get_set]
    exact h.capacity_eq
  · simp [step, lawful.get_set, Channel.close]

theorem step (lawful : box.Lawful) (present : start.handler = some (mailbox box))
    (h : c.Settled start box capacity) (move : Mailbox.Move) :
    (c.step box move).Settled start box capacity := by
  cases move with
  | byte now byte => exact h.byte lawful present now byte
  | take => exact h.take lawful
  | close => exact h.close lawful

theorem run (lawful : box.Lawful) (present : start.handler = some (mailbox box))
    (h : c.Settled start box capacity) (moves : List Mailbox.Move) :
    (c.run box moves).Settled start box capacity := by
  induction moves generalizing c with
  | nil => exact h
  | cons move rest ih => exact ih (h.step lawful present move)

theorem receiving_step (lawful : box.Lawful) (present : start.handler = some (mailbox box))
    (h : c.Settled start box capacity) (move : Mailbox.Move) :
    (box.get (c.step box move).world).receiving = true ↔
      (box.get c.world).receiving = true ∧ move ≠ .close := by
  cases move with
  | byte now byte =>
    have hposted := h.posted lawful present now byte
    have hworld : (c.step box (.byte now byte)).world =
      (c.node.receive now byte c.world).2.2 := rfl
    rw [hworld]
    generalize c.node.receive now byte c.world = answer at hposted ⊢
    obtain ⟨result, node', world'⟩ := answer
    simp [(hposted.channel lawful).1]
  | take =>
    rcases step_take box c with hsame | ⟨packet, rest, -, hstep⟩
    · simp [hsame]
    · simp [hstep, lawful.get_set]
  | close => simp [Collection.step, lawful.get_set, Channel.close]

theorem receiving_run (lawful : box.Lawful) (present : start.handler = some (mailbox box))
    (h : c.Settled start box capacity) (moves : List Mailbox.Move) :
    (box.get (c.run box moves).world).receiving = true ↔
      (box.get c.world).receiving = true ∧ .close ∉ moves := by
  induction moves generalizing c with
  | nil => simp [Collection.run]
  | cons move rest ih =>
    have hrest := ih (h.step lawful present move)
    have hmove := h.receiving_step lawful present move
    have hrun : c.run box (move :: rest) = (c.step box move).run box rest := rfl
    rw [hrun, hrest, hmove, List.mem_cons, not_or, and_assoc, ne_comm]

end Settled

/-- A node that was built reads what it receives as the stream read as a whole. -/
theorem feedAll_of_built {address : UInt8} {settings : Settings} {handler : Option (Handler σ)}
    {sink : Option (Sink σ)} {start : Node σ}
    (made : Node.build (some address) settings handler sink = .ok start) (bytes : List UInt8) :
    (start.assembler.feedAll bytes).1 = Piece.streamResults settings.payloadBound.toNat
      (Piece.cut settings.payloadBound.toNat bytes) := by
  obtain ⟨hcheck, hstart⟩ := Node.build_ok made
  have hle := (Settings.bound_of_check hcheck).2
  have hbound : (Assembler.withBound settings.payloadBound.toNat).bound =
    settings.payloadBound.toNat := Nat.min_eq_left hle
  have hread := (Assembler.Sound.withBound settings.payloadBound.toNat).feedAll_of_idle rfl bytes
  rw [hbound] at hread
  rw [hstart]
  exact hread.1

/-- A mailbox loses nothing silently, whatever bytes come and whenever packets are taken out
of it. Until the receiver goes away, what was taken and then what is in the box are the
packets of the frames that the filter let pass and that were not reported as failures, in
the order of the stream; and each other frame that it let pass was reported. A frame fails
exactly when the box is full, or the receiver is gone, and that changes nothing but counters. -/
theorem nothing_lost_silently {address : UInt8} {settings : Settings}
    {box : Place σ (Channel Packet)} {sink : Option (Sink σ)} {start : Node σ} {capacity : Nat}
    {channel : Channel Packet} {world : σ} (lawful : box.Lawful)
    (made : Node.build (some address) settings (some (mailbox box)) sink = .ok start)
    (opened : Channel.ofCapacity? capacity = some channel) (placed : box.get world = channel)
    (moves : List Mailbox.Move) :
    let bound := settings.payloadBound.toNat
    let c := run box ⟨start, world, [], [], []⟩ moves
    let inBox := box.get c.world
    let kept := start.kept (Piece.streamResults bound (Piece.cut bound c.received)) c.results
    ((Piece.streamResults bound (Piece.cut bound c.received)).length = c.received.length ∧
        c.results.length = c.received.length) ∧
      c.taken ++ inBox.queued <+: kept ∧
      (.close ∉ moves → c.taken ++ inBox.queued = kept) ∧
      inBox.queued.length ≤ capacity ∧
      (.close ∉ moves → c.node.counters.framesDispatched =
        (c.taken.length + inBox.queued.length + c.failures).toUInt64) ∧
      c.node.counters.callbackFailures = c.failures.toUInt64 ∧
      c.node.assembler = (start.assembler.feedAll c.received).2 ∧
      ∀ now byte arrival, start.accepts arrival = true →
        (Piece.streamResults bound (Piece.cut bound (c.received ++ [byte]))).getLast? =
          some (.ok (some arrival)) →
        let answer := c.node.receive now byte c.world
        (.close ∉ moves →
          (answer.1 = .error (.callbackFailed .queueFull) ↔ inBox.queued.length = capacity) ∧
          (inBox.queued.length = capacity → answer.2.2 = c.world) ∧
          (inBox.queued.length < capacity → answer.1 = .ok () ∧
            (box.get answer.2.2).queued = inBox.queued ++ [arrival.packet])) ∧
        (.close ∈ moves →
          answer.1 = .error (.callbackFailed .channelClosed) ∧ answer.2.2 = c.world) := by
  intro bound c inBox kept
  have hread := feedAll_of_built made
  have hempty := Settled.empty made opened placed
  have hpresent : start.handler = some (mailbox box) := by rw [(Node.build_ok made).2]
  have h : c.Settled start box capacity := hempty.run lawful hpresent moves
  have hkept : kept = start.kept (start.assembler.feedAll c.received).1 c.results := by rw [hread]
  have hopen : inBox.receiving = true ↔ .close ∉ moves := by
    have hrun := hempty.receiving_run lawful hpresent moves
    have hstart : (box.get world).receiving = true := by
      rw [placed, Channel.eq_of_ofCapacity? opened]
    simpa [hstart] using hrun
  have hclosed : inBox.receiving = false ↔ .close ∈ moves := by
    rw [← Bool.not_eq_true, hopen, Classical.not_not]
  obtain ⟨counters, lastByte, hnode⟩ := h.node
  obtain ⟨lost, hsettled, hlost⟩ := h.kept
  rw [← hkept] at hsettled
  have hall : .close ∉ moves → c.taken ++ inBox.queued = kept := fun hstays => by
    rw [hsettled, hlost (hopen.mpr hstays), List.append_nil]
  have hlength := start.assembler.length_feedAll c.received
  refine ⟨⟨?_, ?_⟩, ⟨lost, hsettled.symm⟩, hall, h.queued_le, fun hstays => ?_, h.failed, ?_, ?_⟩
  · rw [← hread, hlength]
  · rw [← h.results, hlength]
  · rw [h.dispatched, ← hkept, ← hall hstays, List.length_append]
  · rw [hnode]
  intro now byte arrival accepted hlast answer
  have hassembler : c.node.assembler = (start.assembler.feedAll c.received).2 := by rw [hnode]
  have hcompleted : (c.node.assembler.feed byte).1 = .ok (some arrival) := by
    rw [← hread, Assembler.feedAll_concat, List.getLast?_concat, ← hassembler] at hlast
    exact Option.some.inj hlast
  have haccepts : c.node.accepts arrival = true := by rw [hnode]; exact accepted
  have hposted : c.node.Posted box c.world _ answer := h.posted lawful hpresent now byte
  rw [hcompleted] at hposted
  have hle : inBox.queued.length ≤ inBox.capacity := by
    rw [h.capacity_eq]
    exact h.queued_le
  clear_value answer
  obtain ⟨result, node', world'⟩ := answer
  have hanswer := hposted.answer lawful haccepts hle
  rw [h.capacity_eq] at hanswer
  rw [← hopen, ← hclosed]
  exact hanswer

/-- Room for one packet: of three frames for the node the second finds the box full, the
third comes after the first was taken, and a fourth lacks only its last byte. -/
theorem nothing_lost_silently_full :
    let settings : Settings := { payloadBound := 4, filter := .addressed }
    let box : Place (Channel Packet) (Channel Packet) := .whole
    let start : Node (Channel Packet) :=
      { address := 2, settings, handler := some (mailbox box), assembler := .withBound 4 }
    let moves : List Mailbox.Move :=
      [1, 2, 42, 1, 7, 1, 3, 43, 0, 1, 2, 44, 0].map (.byte 0) ++ [.take] ++
        [1, 2, 45, 0, 1, 2, 46].map (.byte 0)
    let c := run box ⟨start, { capacity := 1 }, [], [], []⟩ moves
    Node.build (some 2) settings (some (mailbox box)) none = .ok start ∧
      Channel.ofCapacity? 1 = some ({ capacity := 1 } : Channel Packet) ∧ .close ∉ moves ∧
      start.kept (Piece.streamResults 4 (Piece.cut 4 c.received)) c.results =
        [⟨1, 2, 42, [7]⟩, ⟨1, 2, 45, []⟩] ∧
      c.node.counters.framesDispatched = 3 ∧
      (c.node.receive 0 0 c.world).1 = .error (.callbackFailed .queueFull) ∧
      (c.node.receive 0 0 c.world).2.2 = c.world := by
  intro settings box start moves
  have made : Node.build (some 2) settings (some (mailbox box)) none = .ok start := rfl
  have opened : Channel.ofCapacity? 1 = some ({ capacity := 1 } : Channel Packet) := rfl
  have stays : .close ∉ moves := by simp [moves]
  have hall := nothing_lost_silently Place.whole_lawful made opened rfl moves
  have haccepts : start.accepts ⟨⟨1, 2, 46, 0⟩, []⟩ = true := rfl
  have hlast : (Piece.streamResults 4 (Piece.cut 4 [1, 2, 42, 1, 7, 1, 3, 43, 0, 1, 2, 44, 0,
      1, 2, 45, 0, 1, 2, 46, 0])).getLast? = some (.ok (some ⟨⟨1, 2, 46, 0⟩, []⟩)) := by
    simp [Piece.cut, Piece.streamResults, Piece.results, Piece.outcome, Piece.bytes, Except.map,
      List.replicate]
  have hreceived : (run box ⟨start, { capacity := 1 }, [], [], []⟩ moves).received =
    [1, 2, 42, 1, 7, 1, 3, 43, 0, 1, 2, 44, 0, 1, 2, 45, 0, 1, 2, 46] := by decide +kernel
  have htaken : (run box ⟨start, { capacity := 1 }, [], [], []⟩ moves).taken =
    [⟨1, 2, 42, [7]⟩] := by decide +kernel
  have hqueued : (run box ⟨start, { capacity := 1 }, [], [], []⟩ moves).world.queued =
    [⟨1, 2, 45, []⟩] := by decide +kernel
  have hfailures : (run box ⟨start, { capacity := 1 }, [], [], []⟩ moves).failures = 1 := by
    decide +kernel
  generalize run box ⟨start, { capacity := 1 }, [], [], []⟩ moves = c at *
  simp only [Place.whole, id_eq] at hall
  obtain ⟨-, -, hkept, -, hdispatched, -, -, hanswer⟩ := hall
  have hfull : c.world.queued.length = 1 := by rw [hqueued]; rfl
  have hcount := hdispatched stays
  rw [htaken, hfull, hfailures] at hcount
  rw [hreceived] at hanswer
  obtain ⟨hfails, hsame, -⟩ := (hanswer 0 0 _ haccepts hlast).1 stays
  refine ⟨made, opened, stays, (hkept stays).symm.trans ?_, hcount, hfails.mpr hfull, hsame hfull⟩
  rw [htaken, hqueued]
  rfl

end Collection

end TwoWire
