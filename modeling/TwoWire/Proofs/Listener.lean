import TwoWire.Proofs.BusRun
import TwoWire.Proofs.RoundTrip

/-! One connection of a bus, followed through whatever the nodes do. What it holds and
what its node has completed make up what the others have put on the line. -/

namespace TwoWire

variable {τ : Type}

structure Node.On (i : Nat) (n : Node (Network τ)) : Prop where
  sink_eq : n.sink = some (Network.sink i)
  quiet : ∀ handler, n.handler = some handler → handler.Quiet
  sound : n.assembler.Sound
  bound_eq : n.assembler.bound = n.settings.payloadBound.toNat

theorem Node.On.keeps {i : Nat} {n : Node (Network τ)} {I : Logged Nat (Network τ) → Prop}
    (h : n.On i)
    (hsink : ∀ p w, I w → I (Sink.logged i (Network.sink i) (Arrival.ofPacket p).bytes w).2)
    (hworld : ∀ w net, net.line.taps = w.world.line.taps → I w → I { w with world := net }) :
    n.Keeps i I where
  sink s hs p _ w hw := by
    cases h.sink_eq.symm.trans hs
    exact hsink p w hw
  handler handler hh x arrival :=
    (h.quiet handler hh x arrival).mono fun update htaps w hw =>
      hworld w (update w.world) (htaps w.world) hw

def Holds (i : Nat) (held : List UInt8) (w : Logged Nat (Network τ)) : Prop :=
  ∃ q, w.world.line.listening i = some q ∧ q.bytes = held

theorem Holds.congr {i : Nat} {held : List UInt8} {w w' : Logged Nat (Network τ)}
    (h : Holds i held w) (hl : w'.world.line.listening i = w.world.line.listening i) :
    Holds i held w' := by
  obtain ⟨q, hq, hheld⟩ := h
  exact ⟨q, hl.trans hq, hheld⟩

namespace Member

def Idle (m : Member τ) : Prop :=
  ∀ n, m.node = some n → n.assembler.phase = .source

/-- All that could be heard had room in the buffer and keeps within the bound of the node. -/
def Spared (i : Nat) (log : List (Callback Nat (Network τ))) (m : Member τ) : Prop :=
  ∀ x ∈ hearings i log, x.2.length + x.1.length ≤ x.2.capacity ∧
    ∀ n, m.node = some n → x.1.length ≤ headerSize + n.settings.payloadBound.toNat

section Spared

variable {i : Nat} {log log' : List (Callback Nat (Network τ))} {m m' : Member τ}

theorem Spared.transfer (h : m'.Spared i log')
    (hsub : ∀ x ∈ hearings i log, x ∈ hearings i log')
    (hnode : ∀ n, m.node = some n → ∃ n', m'.node = some n' ∧ n'.settings = n.settings) :
    m.Spared i log := by
  intro x hx
  obtain ⟨hroom, hshort⟩ := h x (hsub x hx)
  refine ⟨hroom, fun n hn => ?_⟩
  obtain ⟨n', hn', hsettings⟩ := hnode n hn
  rw [← hsettings]
  exact hshort n' hn'

theorem Spared.short (h : m.Spared i log) {n : Node (Network τ)} (hn : m.node = some n) {p : Packet}
    (hp : (Arrival.ofPacket p).bytes ∈ heard i log) :
    p.payload.length ≤ n.settings.payloadBound.toNat := by
  obtain ⟨x, hx, hframe⟩ := List.mem_map.mp hp
  have hlength := (h x hx).2 n hn
  rw [hframe, Arrival.length_bytes] at hlength
  exact Nat.le_of_add_le_add_left hlength

end Spared

def calls (m : Member τ) : List (Exchange × Arrival) :=
  match m.node with
  | none => []
  | some n => (m.completed.filter n.handles).map n.call

/-- What is behind a connection goes with the line: unless a frame was lost on the way or
was too long, the frames completed and those in the buffer are those on the line. -/
structure InStep (i : Nat) (w : Logged Nat (Network τ)) (m : Member τ) : Prop where
  on : ∀ n, m.node = some n → n.On i
  vacant : m.node = none → m.completed = []
  deaf : w.world.line.listening i = none → m.node = none ∧ hearings i w.log = []
  told : handled i w.log = m.calls
  caught : m.Spared i w.log → m.Idle ∧ ∃ waiting : List Packet,
    heard i w.log =
        m.completed.map Arrival.bytes ++ waiting.map (fun p => (Arrival.ofPacket p).bytes) ∧
      ∀ held, Holds i held w → held = (waiting.map fun p => (Arrival.ofPacket p).bytes).flatten

namespace InStep

variable {i : Nat} {w w' : Logged Nat (Network τ)} {m : Member τ}

theorem congr (h : m.InStep i w) (hl : w'.world.line.listening i = w.world.line.listening i)
    (hh : hearings i w'.log = hearings i w.log) (ht : handled i w'.log = handled i w.log) :
    m.InStep i w' where
  on := h.on
  vacant := h.vacant
  deaf hd := hh ▸ h.deaf (hl ▸ hd)
  told := ht.trans h.told
  caught hs := by
    have hspared : m.Spared i w.log := hs.transfer (fun x hx => hh ▸ hx) fun n hn => ⟨n, hn, rfl⟩
    have hheard : heard i w'.log = heard i w.log := congrArg (List.map Prod.fst) hh
    obtain ⟨hidle, waiting, hmade, hheld⟩ := h.caught hspared
    exact ⟨hidle, waiting, hheard.trans hmade,
      fun held hholds => hheld held (hholds.congr hl.symm)⟩

theorem taps (h : m.InStep i w) {net : Network τ} (ht : net.line.taps = w.world.line.taps) :
    m.InStep i { w with world := net } :=
  h.congr (by simp only [SharedLine.listening, ht]) rfl rfl

theorem note (h : m.InStep i w) {node : Nat} (hne : node ≠ i) (x : Exchange) (arrival : Arrival) :
    m.InStep i (w.note (.handled node x arrival)) :=
  h.congr rfl (hearings_note i node x arrival w) (by simp [Logged.note, handled, hne])

theorem sink (h : m.InStep i w) (node : Nat) (p : Packet) :
    m.InStep i (Sink.logged node (Network.sink node) (Arrival.ofPacket p).bytes w).2 := by
  have hhandled := handled_sink i node (Network.sink node) (Arrival.ofPacket p).bytes w
  rcases hearings_sink i node (Arrival.bytes_ne_nil (.ofPacket p)) w with
    ⟨hl, hh⟩ | ⟨-, q, hq, hq', hh⟩
  · exact h.congr hl hh hhandled
  -- The frame came into the buffer, whole if there was room, and waits behind the others.
  · refine ⟨h.on, h.vacant, fun hd => ?_, hhandled.trans h.told, fun hs => ?_⟩
    · rw [hq'] at hd
      cases hd
    · have hroom := (hs ((Arrival.ofPacket p).bytes, q) (by rw [hh]; simp)).1
      have hspared : m.Spared i w.log :=
        hs.transfer (fun x hx => by rw [hh]; exact List.mem_append_left _ hx) fun n hn => ⟨n, hn, rfl⟩
      obtain ⟨hidle, waiting, hheard, hheld⟩ := h.caught hspared
      refine ⟨hidle, waiting ++ [p], ?_, ?_⟩
      · rw [heard, hh, List.map_append, ← heard, hheard]
        simp
      · rintro held ⟨q₁, hq₁, rfl⟩
        cases hq'.symm.trans hq₁
        rw [ByteQueue.accept_of_room hroom, hheld q.bytes ⟨q, hq, rfl⟩]
        simp

theorem popped (h : m.InStep i w) {node : Nat} (hne : node ≠ i) :
    m.InStep i { w with world := (Network.buffer node).popped w.world } :=
  h.congr (by simp [Network.listening_popped, hne]) rfl rfl

theorem joined (h : m.InStep i w) (vacant : m.node = none)
    (listens : w.world.line.listening i ≠ none) {n : Node (Network τ)} (on : n.On i)
    (idle : n.assembler.phase = .source) : InStep i w { node := some n } := by
  obtain ⟨node, completed⟩ := m
  cases vacant
  cases h.vacant rfl
  refine ⟨?_, nofun, fun hd => absurd hd listens, h.told, fun hs => ?_⟩
  · rintro _ ⟨⟩
    exact on
  · have hspared : Spared i w.log (⟨none, []⟩ : Member τ) := by
      refine hs.transfer (fun x hx => hx) ?_
      rintro _ ⟨⟩
    refine ⟨?_, (h.caught hspared).2⟩
    rintro _ ⟨⟩
    exact idle

theorem counted (h : m.InStep i w) {n : Node (Network τ)} (hn : m.node = some n)
    (counters : Counters) :
    InStep i w ⟨some { n with counters }, m.completed ++ []⟩ := by
  obtain ⟨node, completed⟩ := m
  cases hn
  rw [List.append_nil]
  have hon := h.on n rfl
  refine ⟨?_, nofun, fun hd => ?_, h.told, fun hs => ?_⟩
  · rintro _ ⟨⟩
    exact ⟨hon.sink_eq, hon.quiet, hon.sound, hon.bound_eq⟩
  · cases (h.deaf hd).1
  · have hspared : Spared i w.log ⟨some n, completed⟩ := by
      refine hs.transfer (fun x hx => hx) ?_
      rintro _ ⟨⟩
      exact ⟨{ n with counters }, rfl, rfl⟩
    obtain ⟨hidle, hwaiting⟩ := h.caught hspared
    refine ⟨?_, hwaiting⟩
    rintro _ ⟨⟩
    exact hidle n rfl

/-- With nothing left in its buffer a member has completed all that was to be heard. -/
theorem caught_up (h : m.InStep i w) (spared : m.Spared i w.log) (hheld : Holds i [] w) :
    m.Idle ∧ heard i w.log = m.completed.map Arrival.bytes := by
  obtain ⟨hidle, waiting, hheard, hwaiting⟩ := h.caught spared
  refine ⟨hidle, ?_⟩
  cases waiting with
  | nil => simpa using hheard
  | cons p rest =>
    have hnil := hwaiting [] hheld
    rw [List.map_cons, List.flatten_cons] at hnil
    exact absurd (List.append_eq_nil_iff.mp hnil.symm).1 (Arrival.bytes_ne_nil (.ofPacket p))

theorem drained (h : m.InStep i w) {n : Node (Network τ)} (hn : m.node = some n)
    {held : List UInt8} (hheld : Holds i held w) (hempty : Holds i [] w')
    (hknown : hearings i w'.log = hearings i w.log)
    (htold : handled i w'.log = handled i w.log ++
      ((Assembler.completed (n.assembler.feedAll held).1).filter n.handles).map n.call)
    (counters : Counters) (lastByte : Option Nat) :
    let n' := { n with counters, lastByte, assembler := (n.assembler.feedAll held).2 }
    InStep i w' ⟨some n', m.completed ++ Assembler.completed (n.assembler.feedAll held).1⟩ := by
  intro n'
  obtain ⟨node, completed⟩ := m
  cases hn
  have hon := h.on n rfl
  obtain ⟨-, -, hsound, hbound⟩ := hon.sound.feedAll held
  have hheard : heard i w'.log = heard i w.log := congrArg (List.map Prod.fst) hknown
  refine ⟨?_, nofun, fun hd => ?_, ?_, fun hs => ?_⟩
  · rintro _ ⟨⟩
    exact ⟨hon.sink_eq, hon.quiet, hsound, hbound.trans hon.bound_eq⟩
  · obtain ⟨q, hq, -⟩ := hempty
    cases hq.symm.trans hd
  · rw [htold, h.told]
    simp only [calls, List.filter_append, List.map_append]
    rfl
  · have hspared : Spared i w.log ⟨some n, completed⟩ := by
      refine hs.transfer (fun x hx => hknown ▸ hx) ?_
      rintro _ ⟨⟩
      exact ⟨n', rfl, rfl⟩
    obtain ⟨hidle, waiting, hmade, hwaiting⟩ := h.caught hspared
    have hshort : ∀ p ∈ waiting, p.payload.length ≤ n.assembler.bound := by
      intro p hp
      have hmem : (Arrival.ofPacket p).bytes ∈ heard i w.log := by
        rw [hmade]
        exact List.mem_append_right _ (List.mem_map_of_mem hp)
      rw [hon.bound_eq]
      exact hspared.short rfl hmem
    -- What was held is whole frames, so the assembler ends where it was, between two.
    have hfed := hon.sound.feedAll_frames (hidle n rfl) hshort
    rw [← hwaiting held hheld] at hfed
    obtain ⟨hcompleted, hphase⟩ := hfed
    refine ⟨?_, [], ?_, ?_⟩
    · rintro _ ⟨⟩
      exact hphase
    · rw [hheard, hmade, hcompleted]
      simp
    · rintro held' ⟨q, hq, rfl⟩
      obtain ⟨q', hq', hnil⟩ := hempty
      cases hq.symm.trans hq'
      exact hnil

end InStep

end Member

/-- A node takes its own buffer only, and nothing comes into it meanwhile. -/
theorem Node.On.drains {i : Nat} {n : Node (Network τ)} (h : n.On i) (members : Nat → Member τ)
    (known : List (List UInt8 × ByteQueue)) :
    n.Drains i (Network.buffer i) fun held w =>
      Holds i held w ∧ hearings i w.log = known ∧ ∀ j, i ≠ j → (members j).InStep j w where
  held held w := by
    rintro ⟨⟨q, hq, rfl⟩, -⟩
    rw [Network.buffer_of_listening hq]
  popped held w := by
    rintro ⟨⟨q, hq, rfl⟩, hknown, hothers⟩
    refine ⟨⟨q.pop.2, by simp [Network.listening_popped, hq], q.bytes_pop⟩, hknown, ?_⟩
    exact fun j hj => (hothers j hj).popped hj
  keeps held := by
    refine h.keeps ?_ ?_
    · rintro p w ⟨hholds, hknown, hothers⟩
      have hne := Arrival.bytes_ne_nil (.ofPacket p)
      rcases hearings_sink i i hne w with ⟨hl, hh⟩ | ⟨hi, -⟩
      · exact ⟨hholds.congr hl, hh.trans hknown, fun j hj => (hothers j hj).sink i p⟩
      · exact absurd rfl hi
    · rintro w net ht ⟨hholds, hknown, hothers⟩
      refine ⟨hholds.congr ?_, hknown, fun j hj => (hothers j hj).taps ht⟩
      simp only [SharedLine.listening, ht]
  note held x arrival w := by
    rintro ⟨hholds, hknown, hothers⟩
    exact ⟨hholds, (hearings_note i i x arrival w).trans hknown,
      fun j hj => (hothers j hj).note hj x arrival⟩

end TwoWire
