import TwoWire.Proofs.NodeHistory

/-! Reception depends on the bytes and on when the frame in progress is dropped, and on
nothing else: not on addresses, filters, handlers, sinks, what these do, nor on what is
sent or registered in between. -/

namespace TwoWire

variable {σ τ : Type}

/-- What reception depends on. A reset and a lapse come to the same. -/
inductive Stimulus where
  | byte (byte : UInt8)
  | drop
deriving DecidableEq

/-- What can be seen of reception when a stimulus comes: phase and count before, the frame
completed, the fault reported, and phase and count after. -/
structure Sight where
  before : Phase × Nat
  completed : Option Arrival
  refused : Option ParamFault
  after : Phase × Nat
deriving DecidableEq

namespace Assembler

def position (a : Assembler) : Phase × Nat :=
  (a.phase, a.cursor)

def meet (stimulus : Stimulus) (a : Assembler) : Sight × Assembler :=
  match stimulus with
  | .byte byte =>
    match a.feed byte with
    | (.ok arrival?, a') => (⟨a.position, arrival?, none, a'.position⟩, a')
    | (.error fault, a') => (⟨a.position, none, some fault, a'.position⟩, a')
  | .drop => (⟨a.position, none, none, a.reset.position⟩, a.reset)

def meetAll : List Stimulus → Assembler → List Sight × Assembler
  | [], a => ([], a)
  | stimulus :: rest, a =>
    let (sight, a) := a.meet stimulus
    let (sights, a) := a.meetAll rest
    (sight :: sights, a)

theorem meetAll_append (xs ys : List Stimulus) (a : Assembler) :
    a.meetAll (xs ++ ys) =
      ((a.meetAll xs).1 ++ ((a.meetAll xs).2.meetAll ys).1, ((a.meetAll xs).2.meetAll ys).2) := by
  induction xs generalizing a with
  | nil => rfl
  | cons x rest ih => simp [meetAll, ih]

end Assembler

namespace Event

def stimulus? (e : Event σ) : Option Stimulus :=
  match e.occurrence with
  | .byte byte _ => some (.byte byte)
  | .expiry true | .reset => some .drop
  | .expiry false => none

/-- The fault of a parameter that is reported for a byte. -/
def refused? (e : Event σ) : Option ParamFault :=
  match e.occurrence with
  | .byte _ (.error (.badParam fault)) => some fault
  | _ => none

def sight (e : Event σ) : Sight :=
  ⟨e.before.assembler.position, e.frame?, e.refused?, e.after.assembler.position⟩

def stimuli (events : List (Event σ)) : List Stimulus :=
  events.filterMap stimulus?

def sights (events : List (Event σ)) : List Sight :=
  (events.filter (·.stimulus?.isSome)).map sight

theorem meetAll_concat {first : Assembler} {e : Event σ} {stimulus : Stimulus}
    (hstimulus : e.stimulus? = some stimulus)
    (hsight : (e.sight, e.after.assembler) = e.before.assembler.meet stimulus)
    {events : List (Event σ)}
    (h : (sights events, e.before.assembler) = first.meetAll (stimuli events)) :
    (sights (events ++ [e]), e.after.assembler) = first.meetAll (stimuli (events ++ [e])) := by
  have hstimuli : stimuli (events ++ [e]) = stimuli events ++ [stimulus] := by
    simp [stimuli, hstimulus]
  have hsights : sights (events ++ [e]) = sights events ++ [e.sight] := by
    simp [sights, hstimulus]
  rw [hstimuli, Assembler.meetAll_append, ← h, hsights]
  simp [Assembler.meetAll, ← hsight]

end Event

theorem BusError.ofCallback_ne_badParam (cause : BusError) (fault : ParamFault) :
    cause.ofCallback ≠ .badParam fault := by
  cases cause <;> nofun

namespace Node

/-- Whatever a handler fails with, it is not taken for a fault of a parameter. -/
theorem deliver_ne_badParam (arrival : Arrival) (n : Node σ) (world : σ) (fault : ParamFault) :
    (n.deliver arrival world).1 ≠ .error (.badParam fault) := by
  cases ha : n.accepts arrival with
  | false =>
    rw [deliver_of_refused ha]
    nofun
  | true =>
    rcases n.handler.eq_none_or_eq_some with hh | ⟨handler, hh⟩
    · rw [deliver_of_unhandled ha hh]
      nofun
    · simp only [deliver_of_handled ha hh]
      cases (n.react handler arrival world).1 with
      | ok => nofun
      | error cause => exact fun h => cause.ofCallback_ne_badParam fault (Except.error.inj h)

/-- A byte is seen as the assembler alone takes it. -/
theorem sight_receive (now : Nat) (byte : UInt8) (n : Node σ) (world : σ) :
    ((n.received now byte world).sight, (n.receive now byte world).2.1.assembler) =
      n.assembler.meet (.byte byte) := by
  unfold received
  generalize h : n.assembler.feed byte = fed
  obtain ⟨fault | _ | arrival, a⟩ := fed
  · rw [receive_of_fault h]
    simp [Event.sight, Event.frame?, Event.brought, Event.refused?, Assembler.meet, h]
  · rw [receive_of_more h]
    simp [Event.sight, Event.frame?, Event.brought, Event.refused?, Assembler.meet, h]
  · have hresult := deliver_ne_badParam arrival { n.noted now with assembler := a } world
    obtain ⟨counters, hnode, -⟩ := deliver_node arrival { n.noted now with assembler := a } world
    rw [receive_of_frame h, hnode]
    generalize (Node.deliver arrival { n.noted now with assembler := a } world).1 = result
      at hresult
    -- What a handler fails with is the only result that the assembler does not tell.
    have hrefused (n' : Node σ) : Event.refused? ⟨n, .byte byte result, n'⟩ = none := by
      unfold Event.refused?
      split
      · rename_i heq
        injection heq with _ heq
        exact absurd heq (hresult _)
      · rfl
    simp only [Event.sight, hrefused]
    simp [Event.frame?, Event.brought, Assembler.meet, h]

theorem sight_dropped {n n' : Node σ} {occurrence : Occurrence}
    (h : occurrence = .expiry true ∨ occurrence = .reset)
    (hafter : n'.assembler = n.assembler.reset) :
    (Event.sight ⟨n, occurrence, n'⟩, n'.assembler) = n.assembler.meet .drop := by
  rcases h with rfl | rfl <;>
    simp [Event.sight, Event.frame?, Event.brought, Event.refused?, Assembler.meet, hafter]

/-- The stimuli alone tell what is seen of reception. -/
theorem History.meetAll {start n : Node σ} {events : List (Event σ)} (h : History start n events) :
    (Event.sights events, n.assembler) = start.assembler.meetAll (Event.stimuli events) := by
  induction h with
  | start => rfl
  | byte now byte world _ ih => exact Event.meetAll_concat rfl (sight_receive now byte _ world) ih
  | send _ _ _ ih | handler _ _ ih | sink _ _ ih => exact ih
  | kept _ ih =>
    have hnone {n : Node σ} : (Event.mk n (.expiry false) n).stimulus? = none := rfl
    simpa [Event.sights, Event.stimuli, hnone] using ih
  | lapsed _ _ ih => exact Event.meetAll_concat rfl (sight_dropped (.inl rfl) rfl) ih
  | reset _ ih => exact Event.meetAll_concat rfl (sight_dropped (.inr rfl) rfl) ih

end Node

namespace Chronicle

/-- Two nodes with one payload bound that meet the same stimuli go through the same phases,
complete the same frames and report the same faults, each at the same stimulus. -/
theorem sights_of_stimuli {address address' : UInt8} {settings settings' : Settings}
    {handler : Option (Handler σ)} {handler' : Option (Handler τ)}
    {sink : Option (Sink σ)} {sink' : Option (Sink τ)} {n : Node σ} {n' : Node τ}
    (built : Node.build (some address) settings handler sink = .ok n)
    (built' : Node.build (some address') settings' handler' sink' = .ok n')
    (bound : settings.payloadBound = settings'.payloadBound)
    (world : σ) (world' : τ) (moves : List (Node.Move σ)) (moves' : List (Node.Move τ)) :
    let c := run moves ⟨n, world, []⟩
    let d := run moves' ⟨n', world', []⟩
    Event.stimuli c.events = Event.stimuli d.events →
      Event.sights c.events = Event.sights d.events ∧ c.node.assembler = d.node.assembler := by
  intro c d same
  have hc : c.From n := from_run n world moves
  have hd : d.From n' := from_run n' world' moves'
  have hfresh : n.assembler = n'.assembler := by
    obtain ⟨-, rfl⟩ := Node.build_ok built
    obtain ⟨-, rfl⟩ := Node.build_ok built'
    rw [bound]
  have heq : (Event.sights c.events, c.node.assembler) =
      (Event.sights d.events, d.node.assembler) := by
    calc (Event.sights c.events, c.node.assembler)
        = n.assembler.meetAll (Event.stimuli c.events) := hc.meetAll
      _ = n'.assembler.meetAll (Event.stimuli d.events) := by rw [hfresh, same]
      _ = (Event.sights d.events, d.node.assembler) := hd.meetAll.symm
  exact Prod.mk.inj heq

/-- One node drains a buffer and fails on what it handles; the other has no handler at first,
gets one in the middle of a frame, and sends in vain meanwhile. -/
theorem sights_of_stimuli_pair :
    let grumble : Handler ByteQueue := fun _ _ => .done (.error .unpackFailed)
    let answer : Handler Nat := fun x _ => .reply x 90 [7]
    let broken : Sink Nat := fun _ count => (.error .queueFull, count + 1)
    let n : Node ByteQueue :=
      { address := 2, settings := { payloadBound := 4 }, handler := some grumble,
        assembler := .withBound 4 }
    let n' : Node Nat :=
      { address := 9, settings := { payloadBound := 4, filter := .addressed, broadcast := some 2 },
        sink := some broken, assembler := .withBound 4 }
    let c := run [.outside (ByteQueue.accept [1, 2, 42, 2, 8, 9, 1, 2, 3, 5, 1, 2]),
      .drain .whole 0 16, .expire, .receiveAll 0 [1, 2, 7]] ⟨n, ⟨16, []⟩, []⟩
    let d := run [.receiveAll 4 [1, 2, 42, 2, 8], .setHandler (some answer), .sendTo 1 2 [3],
      .receiveAll 5 [9, 1, 2, 3, 5], .checkIdle 9, .receiveAll 6 [1, 2], .reset, .setSink none,
      .receiveAll 7 [1, 2, 7]] ⟨n', 0, []⟩
    Node.build (some 2) n.settings (some grumble) none = .ok n ∧
      Node.build (some 9) n'.settings none (some broken) = .ok n' ∧
      n.settings.payloadBound = n'.settings.payloadBound ∧
      Event.stimuli c.events = Event.stimuli d.events ∧
      Event.sights d.events = Event.sights c.events ∧
      (Event.sights c.events).filterMap Sight.completed = [⟨⟨1, 2, 42, 2⟩, [8, 9]⟩] ∧
      (Event.sights c.events).filterMap Sight.refused = [.payloadTooLong 5 4] ∧
      d.node.assembler.position = (.length, 0) := by
  intro grumble answer broken n n' c d
  have built : Node.build (some 2) n.settings (some grumble) none = .ok n := rfl
  have built' : Node.build (some 9) n'.settings none (some broken) = .ok n' := rfl
  have same : Event.stimuli c.events = Event.stimuli d.events := by decide +kernel
  obtain ⟨hsights, hnode⟩ := sights_of_stimuli built built' rfl ⟨16, []⟩ 0 _ _ same
  refine ⟨built, built', rfl, same, hsights.symm, by decide +kernel, by decide +kernel, ?_⟩
  rw [← hnode]
  decide +kernel

end Chronicle

end TwoWire
