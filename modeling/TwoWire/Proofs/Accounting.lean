import Mathlib.Algebra.GroupWithZero.Nat
import TwoWire.Proofs.NodeHistory

/-! The counters of a node as counts of what happened to it, and the balance of bytes:
every byte received belongs to a completed frame, to a header with a length above the
bound, to a frame that was dropped, or to the one in progress. -/

namespace TwoWire

variable {σ : Type}

namespace Assembler

def inProgress (a : Assembler) : Nat :=
  match a.phase with
  | .source => 0
  | .destination => 1
  | .opCode => 2
  | .length => 3
  | .payload => headerSize + a.cursor

theorem Sound.length_pending {a : Assembler} (h : a.Sound) : a.pending.length = a.inProgress := by
  cases hp : a.phase with
  | source | destination | opCode | length => simp [pending, inProgress, hp]
  | payload =>
    have := h.cursor_lt hp
    have := h.length_le hp
    have := h.bound_le
    simp only [pending, inProgress, hp, List.length_append, Header.length_bytes, List.length_take,
      Vector.length_toList]
    omega

theorem inProgress_pos {a : Assembler} (h : a.isIdle = false) : 0 < a.inProgress := by
  cases hp : a.phase with
  | source => simp [isIdle, hp] at h
  | destination | opCode | length => simp [inProgress, hp]
  | payload =>
    simp only [inProgress, hp, headerSize]
    omega

theorem inProgress_of_idle {a : Assembler} (h : a.phase = .source) : a.inProgress = 0 := by
  simp [inProgress, h]

end Assembler

inductive Fate where
  | dispatched | filtered | unhandled
deriving DecidableEq

def Fate.counter : Fate → Counter
  | dispatched => .framesDispatched
  | filtered => .framesFiltered
  | unhandled => .framesUnhandled

/-- The filter comes first: a frame it rejects is not missed by anybody. -/
def Node.fate (n : Node σ) (arrival : Arrival) : Fate :=
  if n.accepts arrival then if n.handler.isSome then .dispatched else .unhandled
  else .filtered

namespace Event

def isByte (e : Event σ) : Bool :=
  match e.occurrence with
  | .byte _ _ => true
  | _ => false

def isRefusal (e : Event σ) : Bool :=
  match e.brought with
  | .ok _ => false
  | .error _ => true

def fate? (e : Event σ) : Option Fate :=
  e.frame?.map e.before.fate

def isLapse (e : Event σ) : Bool :=
  match e.occurrence with
  | .expiry answer => answer
  | _ => false

/-- The bytes of the frame that is completed. -/
def framed (e : Event σ) : Nat :=
  match e.frame? with
  | some arrival => headerSize + arrival.payload.length
  | none => 0

/-- The bytes of a frame in progress that are dropped. -/
def dropped (e : Event σ) : Nat :=
  match e.occurrence with
  | .expiry true | .reset => e.before.assembler.inProgress
  | _ => 0

/-- Whether a counter goes up. What was sent and what failed in callbacks is counted
elsewhere. -/
def counts (e : Event σ) : Counter → Bool
  | .bytesReceived => e.isByte
  | .framesDispatched => e.fate? == some .dispatched
  | .framesFiltered => e.fate? == some .filtered
  | .framesUnhandled => e.fate? == some .unhandled
  | .lengthErrors => e.isRefusal
  | .idleResets => e.isLapse
  | .callbackFailures | .framesSent => false

theorem counts_fate (e : Event σ) (fate : Fate) :
    e.counts fate.counter = (e.fate? == some fate) := by
  cases fate <;> rfl

section

variable {n n' : Node σ} {byte : UInt8} {result : Except BusError Unit} {a : Assembler}

theorem counts_of_more (h : n.assembler.feed byte = (.ok none, a)) (k : Counter) :
    counts ⟨n, .byte byte result, n'⟩ k = (k == .bytesReceived) := by
  cases k <;> simp [counts, isByte, fate?, frame?, isRefusal, isLapse, brought, h]

theorem counts_of_fault {fault : ParamFault} (h : n.assembler.feed byte = (.error fault, a))
    (k : Counter) :
    counts ⟨n, .byte byte result, n'⟩ k = (k == .bytesReceived || k == .lengthErrors) := by
  cases k <;> simp [counts, isByte, fate?, frame?, isRefusal, isLapse, brought, h]

theorem counts_of_frame {arrival : Arrival} (h : n.assembler.feed byte = (.ok (some arrival), a))
    (k : Counter) :
    counts ⟨n, .byte byte result, n'⟩ k =
      (k == .bytesReceived || k == (n.fate arrival).counter) := by
  have hfate : fate? ⟨n, .byte byte result, n'⟩ = some (n.fate arrival) := by
    simp [fate?, frame?, brought, h]
  have hrefusal : isRefusal ⟨n, .byte byte result, n'⟩ = false := by
    simp [isRefusal, brought, h]
  cases k <;> simp only [counts, hfate, hrefusal] <;> cases n.fate arrival <;> rfl

theorem counts_of_expiry (n n' : Node σ) (answer : Bool) (k : Counter) :
    counts ⟨n, .expiry answer, n'⟩ k = (answer && k == .idleResets) := by
  cases k <;> cases answer <;> rfl

theorem counts_of_reset (n n' : Node σ) (k : Counter) : counts ⟨n, .reset, n'⟩ k = false := by
  cases k <;> rfl

end

end Event

/-- Counters that reception alone changes. -/
def Counter.ofReception : Counter → Bool
  | callbackFailures | framesSent => false
  | _ => true

theorem Fate.counter_ofReception (fate : Fate) : fate.counter.ofReception = true := by
  cases fate <;> rfl

/-- The counters of what comes after an event are those before it, and one more of those
that count it. -/
def Event.Counted (e : Event σ) : Prop :=
  ∀ k : Counter, k.ofReception → e.after.counters.get k =
    e.before.counters.get k + if e.counts k then 1 else 0

theorem Event.Counted.append {e : Event σ} (h : e.Counted) {k : Counter} (hk : k.ofReception)
    {events : List (Event σ)} {first : UInt64}
    (hbefore : e.before.counters.get k = first + (events.countP (·.counts k)).toUInt64) :
    e.after.counters.get k = first + ((events ++ [e]).countP (·.counts k)).toUInt64 := by
  rw [h k hk, hbefore, List.countP_append, List.countP_singleton, Nat.toUInt64_eq,
    Nat.toUInt64_eq, UInt64.ofNat_add, UInt64.add_assoc]
  cases e.counts k <;> rfl

namespace Node

theorem get_deliver (arrival : Arrival) (n : Node σ) (world : σ) {k : Counter}
    (hk : k.ofReception) :
    (n.deliver arrival world).2.1.counters.get k =
      n.counters.get k + if k = (n.fate arrival).counter then 1 else 0 := by
  cases ha : n.accepts arrival with
  | false =>
    have hfate : n.fate arrival = .filtered := by simp [fate, ha]
    rw [deliver_of_refused ha, hfate]
    cases k <;> simp [Counters.get, Fate.counter]
  | true =>
    rcases n.handler.eq_none_or_eq_some with hh | ⟨handler, hh⟩
    · have hfate : n.fate arrival = .unhandled := by simp [fate, ha, hh]
      rw [deliver_of_unhandled ha hh, hfate]
      cases k <;> simp [Counters.get, Fate.counter]
    · have hfate : n.fate arrival = .dispatched := by simp [fate, ha, hh]
      rw [deliver_of_handled ha hh, hfate]
      cases k with
      | framesSent | callbackFailures => cases hk
      | _ => simp [Counters.get, Counters.dispatched, Fate.counter]

theorem counted_receive (now : Nat) (byte : UInt8) (n : Node σ) (world : σ) :
    (n.received now byte world).Counted := by
  intro k hk
  unfold received
  generalize h : n.assembler.feed byte = fed
  obtain ⟨fault | _ | arrival, a⟩ := fed
  · rw [receive_of_fault h, Event.counts_of_fault h]
    cases k <;> simp [Counters.get, noted]
  · rw [receive_of_more h, Event.counts_of_more h]
    cases k <;> simp [Counters.get, noted]
  · have hfate : Node.fate { n.noted now with assembler := a } arrival = n.fate arrival := rfl
    rw [receive_of_frame h, Event.counts_of_frame h]
    simp only [get_deliver _ _ _ hk, hfate]
    cases n.fate arrival <;> cases k <;> simp [Counters.get, noted, Fate.counter]

theorem counted_kept (n : Node σ) : Event.Counted ⟨n, .expiry false, n⟩ := by
  intro k _
  rw [Event.counts_of_expiry]
  exact (UInt64.add_zero _).symm

theorem counted_lapsed (n : Node σ) : Event.Counted ⟨n, .expiry true, n.lapsed⟩ := by
  intro k _
  rw [Event.counts_of_expiry]
  cases k <;> simp [Counters.get, lapsed]

theorem counted_reset (n : Node σ) : Event.Counted ⟨n, .reset, n.reset⟩ := by
  intro k _
  rw [Event.counts_of_reset]
  exact (UInt64.add_zero _).symm

end Node

/-- Every byte that was in progress or came is accounted for afterwards. -/
def Event.Balanced (e : Event σ) : Prop :=
  e.before.assembler.inProgress + e.isByte.toNat =
    e.framed + headerSize * e.isRefusal.toNat + e.dropped + e.after.assembler.inProgress

theorem Event.Balanced.append {e : Event σ} (h : e.Balanced) {events : List (Event σ)} {first : Nat}
    (hbefore : first + events.countP isByte =
      (events.map framed).sum + headerSize * events.countP isRefusal + (events.map dropped).sum +
        e.before.assembler.inProgress) :
    first + (events ++ [e]).countP isByte =
      ((events ++ [e]).map framed).sum + headerSize * (events ++ [e]).countP isRefusal +
        ((events ++ [e]).map dropped).sum + e.after.assembler.inProgress := by
  have hbyte : (events ++ [e]).countP isByte = events.countP isByte + e.isByte.toNat := by
    rw [List.countP_append, List.countP_singleton]
    cases e.isByte <;> rfl
  have hrefusal : (events ++ [e]).countP isRefusal =
      events.countP isRefusal + e.isRefusal.toNat := by
    rw [List.countP_append, List.countP_singleton]
    cases e.isRefusal <;> rfl
  simp only [Event.Balanced] at h
  simp only [hbyte, hrefusal, List.map_append, List.sum_append, List.map_cons, List.map_nil,
    List.sum_cons, List.sum_nil, Nat.mul_add]
  omega

namespace Node

theorem balanced_receive {n : Node σ} (hs : n.assembler.Sound) (now : Nat) (byte : UInt8)
    (world : σ) :
    (n.received now byte world).Balanced := by
  obtain ⟨counters, lastByte, hnode⟩ := receive_node now byte n world
  have hfed := hs.feed byte
  have hbefore := hs.length_pending
  -- The byte joins those in progress; with the last one they are a frame or a refused header.
  simp only [received, Event.Balanced, Event.isByte, Event.framed, Event.frame?, Event.isRefusal,
    Event.brought, Event.dropped, hnode, ← hbefore]
  generalize n.assembler.feed byte = fed at hfed
  cases hfed with
  | more sound _ pending_eq => simp [← sound.length_pending, pending_eq]
  | frame _ _ idle _ bytes_eq =>
    have hlength := congrArg List.length bytes_eq
    simp only [Arrival.length_bytes, List.length_append, List.length_singleton] at hlength
    simp [Assembler.inProgress_of_idle idle, hlength]
  | refused _ _ idle _ bytes_eq =>
    have hlength := congrArg List.length bytes_eq
    simp only [Header.length_bytes, List.length_append, List.length_singleton] at hlength
    simp [Assembler.inProgress_of_idle idle, hlength]

theorem balanced_kept (n : Node σ) : Event.Balanced ⟨n, .expiry false, n⟩ := by
  change n.assembler.inProgress + 0 = 0 + headerSize * 0 + 0 + n.assembler.inProgress
  omega

/-- What a lapse or a reset drops was in progress, and nothing is afterwards. -/
theorem balanced_dropped {n n' : Node σ} {occurrence : Occurrence}
    (h : occurrence = .expiry true ∨ occurrence = .reset)
    (hafter : n'.assembler = n.assembler.reset) : Event.Balanced ⟨n, occurrence, n'⟩ := by
  have hidle : n'.assembler.inProgress = 0 := by
    rw [hafter]
    rfl
  rcases h with rfl | rfl
  all_goals
    change n.assembler.inProgress + 0 =
      0 + headerSize * 0 + n.assembler.inProgress + n'.assembler.inProgress
    omega

namespace History

variable {start n : Node σ} {events : List (Event σ)}

theorem sound (h : History start n events) (hs : start.assembler.Sound) : n.assembler.Sound := by
  induction h with
  | start => exact hs
  | @byte n _ now byte world _ ih =>
    obtain ⟨counters, lastByte, hnode⟩ := receive_node now byte n world
    rw [hnode]
    exact (ih.feed byte).sound
  | send _ _ _ ih | handler _ _ ih | sink _ _ ih | kept _ ih => exact ih
  | lapsed _ _ ih | reset _ ih => exact ih.reset

/-- What holds of everything that can happen to a sound node holds of all that has. -/
theorem forall_events {P : Event σ → Prop} (h : History start n events)
    (hs : start.assembler.Sound)
    (byte : ∀ (n : Node σ) now byte world, n.assembler.Sound → P (n.received now byte world))
    (kept : ∀ n, P ⟨n, .expiry false, n⟩) (lapsed : ∀ n : Node σ, n.assembler.isIdle = false →
      P ⟨n, .expiry true, n.lapsed⟩)
    (reset : ∀ n, P ⟨n, .reset, n.reset⟩) : ∀ e ∈ events, P e := by
  induction h with
  | start => exact fun _ he => absurd he List.not_mem_nil
  | byte now b world h ih =>
    have hlast := byte _ now b world (h.sound hs)
    exact List.forall_mem_append.mpr ⟨ih, List.forall_mem_singleton.mpr hlast⟩
  | send _ _ _ ih | handler _ _ ih | sink _ _ ih => exact ih
  | kept _ ih => exact List.forall_mem_append.mpr ⟨ih, List.forall_mem_singleton.mpr (kept _)⟩
  | lapsed busy _ ih =>
    exact List.forall_mem_append.mpr ⟨ih, List.forall_mem_singleton.mpr (lapsed _ busy)⟩
  | reset _ ih => exact List.forall_mem_append.mpr ⟨ih, List.forall_mem_singleton.mpr (reset _)⟩

theorem counted (h : History start n events) {k : Counter} (hk : k.ofReception) :
    n.counters.get k = start.counters.get k + (events.countP (·.counts k)).toUInt64 := by
  induction h with
  | start => simp
  | byte now byte world _ ih => exact (counted_receive now byte _ world).append hk ih
  | send _ _ _ ih =>
    rw [← ih]
    cases k with
    | framesSent | callbackFailures => cases hk
    | _ => rfl
  | handler _ _ ih | sink _ _ ih => exact ih
  | kept _ ih => exact (counted_kept _).append hk ih
  | lapsed _ _ ih => exact (counted_lapsed _).append hk ih
  | reset _ ih => exact (counted_reset _).append hk ih

theorem balanced (h : History start n events) (hs : start.assembler.Sound) :
    start.assembler.inProgress + events.countP Event.isByte =
      (events.map Event.framed).sum + headerSize * events.countP Event.isRefusal +
        (events.map Event.dropped).sum + n.assembler.inProgress := by
  induction h with
  | start => simp
  | byte now byte world h ih => exact (balanced_receive (h.sound hs) now byte world).append ih
  | send _ _ _ ih | handler _ _ ih | sink _ _ ih => exact ih
  | kept _ ih => exact (balanced_kept _).append ih
  | lapsed _ _ ih => exact (balanced_dropped (.inl rfl) rfl).append ih
  | reset _ ih => exact (balanced_dropped (.inr rfl) rfl).append ih

theorem forall_counted (h : History start n events) (hs : start.assembler.Sound) :
    ∀ e ∈ events, e.Counted :=
  h.forall_events hs (fun n now byte world _ => counted_receive now byte n world) counted_kept
    (fun n _ => counted_lapsed n) counted_reset

/-- Every lapse drops at least one byte. -/
theorem countP_isLapse_le (h : History start n events) (hs : start.assembler.Sound) :
    events.countP Event.isLapse ≤ (events.map Event.dropped).sum := by
  have hle : ∀ e ∈ events, e.isLapse.toNat ≤ e.dropped :=
    h.forall_events hs (fun _ _ _ _ _ => Nat.zero_le _) (fun _ => Nat.zero_le _)
      (fun _ busy => Assembler.inProgress_pos busy) (fun _ => Nat.zero_le _)
  clear h
  induction events with
  | nil => exact Nat.le_refl 0
  | cons e rest ih =>
    have hrest := ih fun x hx => hle x (List.mem_cons_of_mem _ hx)
    have hhead := hle e List.mem_cons_self
    rw [List.countP_cons, List.map_cons, List.sum_cons]
    cases hlapse : e.isLapse <;> simp [hlapse] at hhead ⊢ <;> omega

/-- No counter of reception is ahead of the bytes received. -/
theorem countP_counts_le (h : History start n events) (hs : start.assembler.Sound)
    (idle : start.assembler.phase = .source) (k : Counter) :
    events.countP (·.counts k) ≤ events.countP Event.isByte := by
  have hbyte : ∀ e : Event σ, e.fate?.isSome ∨ e.isRefusal = true → e.isByte = true := by
    intro e he
    obtain ⟨before, occurrence, after⟩ := e
    cases occurrence with
    | byte byte result => rfl
    | expiry answer => simp [Event.fate?, Event.frame?, Event.isRefusal, Event.brought] at he
    | reset => simp [Event.fate?, Event.frame?, Event.isRefusal, Event.brought] at he
  have hfate : ∀ fate : Fate,
      events.countP (·.fate? == some fate) ≤ events.countP Event.isByte := by
    intro fate
    refine List.countP_mono_left fun e _ he => hbyte e (.inl ?_)
    simp [eq_of_beq he]
  cases k with
  | bytesReceived => exact Nat.le_refl _
  | framesDispatched => exact hfate .dispatched
  | framesFiltered => exact hfate .filtered
  | framesUnhandled => exact hfate .unhandled
  | lengthErrors => exact List.countP_mono_left fun e _ he => hbyte e (.inr he)
  | idleResets =>
    -- A lapse is no byte, but the bytes that it drops have come.
    have hbalanced := h.balanced hs
    have hlapses := h.countP_isLapse_le hs
    rw [Assembler.inProgress_of_idle idle] at hbalanced
    change events.countP Event.isLapse ≤ _
    omega
  | callbackFailures | framesSent => simp [Event.counts]

/-- As long as the bytes received can be counted, so can everything else about them. -/
theorem toNat_counted (h : History start n events) (hs : start.assembler.Sound)
    (idle : start.assembler.phase = .source) (fresh : start.counters = {})
    (few : events.countP Event.isByte < UInt64.size) {k : Counter} (hk : k.ofReception) :
    (n.counters.get k).toNat = events.countP (·.counts k) := by
  have hle := h.countP_counts_le hs idle k
  have hzero : start.counters.get k = 0 := by
    rw [fresh]
    cases k <;> rfl
  rw [h.counted hk, hzero, UInt64.zero_add, Nat.toUInt64_eq,
    UInt64.toNat_ofNat_of_lt' (Nat.lt_of_le_of_lt hle few)]

end History

end Node

theorem Event.sum_framed (events : List (Event σ)) :
    (events.map framed).sum =
      ((events.filterMap frame?).map fun arrival => headerSize + arrival.payload.length).sum := by
  induction events with
  | nil => rfl
  | cons e rest ih =>
    rw [List.map_cons, List.sum_cons, ih]
    cases hframe : e.frame? <;> simp [framed, hframe]

namespace Chronicle

/-- A completed frame makes exactly one of three counters go up, by what the node is when its
last byte comes; and the bytes received are those of completed frames, of refused headers, of
dropped frames and of the one in progress. -/
theorem counters_in_balance {address : UInt8} {settings : Settings} {handler : Option (Handler σ)}
    {sink : Option (Sink σ)} {start : Node σ}
    (built : Node.build (some address) settings handler sink = .ok start) (world : σ)
    (moves : List (Node.Move σ)) :
    let c := run moves ⟨start, world, []⟩
    c.events.countP Event.isByte < UInt64.size →
      (∀ e ∈ c.events, ∀ arrival, e.frame? = some arrival → ∀ fate : Fate,
        e.after.counters.get fate.counter = e.before.counters.get fate.counter +
          if e.before.fate arrival = fate then 1 else 0) ∧
      (∀ fate : Fate, (c.node.counters.get fate.counter).toNat =
        c.events.countP (·.fate? == some fate)) ∧
      c.node.counters.idleResets.toNat = c.events.countP Event.isLapse ∧
      c.node.counters.bytesReceived.toNat =
        ((c.events.filterMap Event.frame?).map fun arrival =>
          headerSize + arrival.payload.length).sum +
        headerSize * c.node.counters.lengthErrors.toNat + (c.events.map Event.dropped).sum +
        c.node.assembler.inProgress := by
  intro c few
  obtain ⟨-, rfl⟩ := Node.build_ok built
  have h : c.From _ := from_run _ world moves
  have hs : (Assembler.withBound settings.payloadBound.toNat).Sound := .withBound _
  have hcounted {k : Counter} (hk : k.ofReception) :
      (c.node.counters.get k).toNat = c.events.countP (·.counts k) :=
    h.toNat_counted hs rfl rfl few hk
  refine ⟨fun e he arrival harrival fate => ?_, fun fate => ?_, ?_, ?_⟩
  · have hfate : e.fate? = some (e.before.fate arrival) := by simp [Event.fate?, harrival]
    rw [h.forall_counted hs e he _ fate.counter_ofReception, Event.counts_fate, hfate]
    simp
  · rw [hcounted fate.counter_ofReception]
    exact List.countP_congr fun e _ => by rw [Event.counts_fate]
  · exact hcounted (k := .idleResets) rfl
  · have hbalanced := h.balanced hs
    have hbytes := hcounted (k := .bytesReceived) rfl
    have hrefusals := hcounted (k := .lengthErrors) rfl
    rw [Assembler.inProgress_of_idle rfl, Nat.zero_add, Event.sum_framed] at hbalanced
    simp only [Counters.get, Event.counts] at hbytes hrefusals
    rw [hbytes, hrefusals, hbalanced]

/-- A handler that fails on every frame, frames for others and for nobody, a length above the
bound, an expired frame, a reset in a header, and a frame that has just begun. -/
def mixedTraffic : List (Node.Move ByteQueue) :=
  [.receiveAll 0 [1, 2, 42, 1, 9], .receiveAll 1 [1, 3, 42, 0], .setHandler none,
    .receiveAll 2 [1, 2, 43, 0], .receiveAll 3 [1, 2, 3, 200], .receiveAll 4 [1, 2, 3, 2, 5],
    .send ⟨2, 1, 7, []⟩, .expire, .expire, .receiveAll 5 [1, 2], .reset,
    .outside (ByteQueue.accept [1, 2, 44]), .drain .whole 6 4]

theorem counters_in_balance_mixed :
    let settings : Settings := { payloadBound := 4, filter := .addressed }
    let handler : Handler ByteQueue := fun _ _ => .done (.error .unpackFailed)
    let start : Node ByteQueue :=
      { address := 2, settings, handler := some handler, assembler := .withBound 4 }
    let c := run mixedTraffic ⟨start, ⟨8, []⟩, []⟩
    Node.build (some 2) settings (some handler) none = .ok start ∧
      c.events.countP Event.isByte < UInt64.size ∧
      c.node.counters.framesDispatched.toNat = 1 ∧ c.node.counters.framesFiltered.toNat = 1 ∧
      c.node.counters.framesUnhandled.toNat = 1 ∧ c.node.counters.idleResets.toNat = 1 ∧
      c.node.counters.bytesReceived.toNat =
        (5 + 4 + 4) + headerSize * c.node.counters.lengthErrors.toNat + (5 + 2) + 3 := by
  intro settings handler start
  have built : Node.build (some 2) settings (some handler) none = .ok start := rfl
  have few : (run mixedTraffic ⟨start, ⟨8, []⟩, []⟩).events.countP Event.isByte < UInt64.size := by
    decide +kernel
  obtain ⟨-, hfates, hlapses, hbytes⟩ := counters_in_balance built ⟨8, []⟩ mixedTraffic few
  have hcounts : ∀ fate : Fate, (run mixedTraffic ⟨start, ⟨8, []⟩, []⟩).events.countP
      (·.fate? == some fate) = 1 := by
    intro fate
    cases fate <;> decide +kernel
  have hlapse : (run mixedTraffic ⟨start, ⟨8, []⟩, []⟩).events.countP Event.isLapse = 1 := by
    decide +kernel
  have hframed : (((run mixedTraffic ⟨start, ⟨8, []⟩, []⟩).events.filterMap Event.frame?).map
      fun arrival => headerSize + arrival.payload.length) = [5, 4, 4] := by decide +kernel
  have hdropped : ((run mixedTraffic ⟨start, ⟨8, []⟩, []⟩).events.map Event.dropped).sum =
      5 + 2 := by decide +kernel
  have hprogress : (run mixedTraffic ⟨start, ⟨8, []⟩, []⟩).node.assembler.inProgress = 3 := by
    decide +kernel
  rw [hframed, hdropped, hprogress] at hbytes
  refine ⟨built, few, ?_, ?_, ?_, hlapses.trans hlapse, hbytes⟩
  · exact (hfates .dispatched).trans (hcounts .dispatched)
  · exact (hfates .filtered).trans (hcounts .filtered)
  · exact (hfates .unhandled).trans (hcounts .unhandled)

end Chronicle

end TwoWire
