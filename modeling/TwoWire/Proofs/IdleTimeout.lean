import TwoWire.Proofs.Accounting

/-! When a frame in progress counts as stale. Only the clock at the last byte is kept, only
where a time-out is set, and nothing ever clears it. It is enough: as long as a frame is in
progress that byte is the last one of the frame. -/

namespace TwoWire

variable {σ : Type}

theorem Span.toNanos_ofMillis (ms : UInt64) : (ofMillis ms).toNanos = ms.toNat * 1000000 := by
  have hseconds : (ms / 1000).toNat = ms.toNat / 1000 := UInt64.toNat_div ms 1000
  simp only [toNanos, ofMillis, hseconds]
  omega

namespace Node

theorem lastByte_receive (now : Nat) (byte : UInt8) (n : Node σ) (world : σ) :
    (n.receive now byte world).2.1.lastByte =
      if n.settings.idleTimeout.isSome then some now else n.lastByte := by
  generalize h : n.assembler.feed byte = fed
  obtain ⟨fault | _ | arrival, a⟩ := fed
  · rw [receive_of_fault h]
    rfl
  · rw [receive_of_more h]
    rfl
  · obtain ⟨counters, hnode, -⟩ := deliver_node arrival { n.noted now with assembler := a } world
    rw [receive_of_frame h, hnode]
    rfl

theorem isIdle_expire (n : Node σ) : n.expire.2.assembler.isIdle = true := by
  cases h : n.assembler.isIdle with
  | true => rw [expire_of_idle h, h]
  | false =>
    rw [expire_of_busy h]
    rfl

theorem checkIdle_of_kept {n : Node σ} {now ms last : Nat} {timeout : Span}
    (set : n.settings.idleSpan = some timeout) (kept : n.lastByte = some last)
    (length : timeout.toNanos = ms) :
    n.checkIdle now = if ms ≤ now - last then n.expire else (false, n) := by
  subst length
  simp only [checkIdle, set, kept]
  by_cases h : now - last < timeout.toNanos
  · rw [if_pos h, if_neg (Nat.not_le_of_lt h)]
  · rw [if_neg h, if_pos (Nat.le_of_not_lt h)]

/-- The clock at the bytes that a move brings. -/
def Move.clock : Move σ → Nat
  | receive now _ | receiveAll now _ | drain _ now _ => now
  | _ => 0

end Node

namespace Chronicle

def byteCount (c : Chronicle σ) : Nat :=
  c.events.countP Event.isByte

@[simp] theorem byteCount_receive (now : Nat) (byte : UInt8) (c : Chronicle σ) :
    (c.receive now byte).byteCount = c.byteCount + 1 := by
  simp [byteCount, Chronicle.receive, note, Event.isByte]

@[simp] theorem byteCount_expiry (answer : Bool) (n : Node σ) (world : σ) (c : Chronicle σ) :
    (c.note (.expiry answer) n world).byteCount = c.byteCount := by
  simp [byteCount, note, Event.isByte]

/-- Between two points of a history some bytes may have come, all at one reading of the clock.
Without any, nothing begins a frame and nothing touches the record of the last byte. -/
structure Passes (now : Nat) (c c' : Chronicle σ) : Prop where
  settings_eq : c'.node.settings = c.node.settings
  byteCount_le : c.byteCount ≤ c'.byteCount
  lastByte_eq : c'.node.lastByte =
    if c.node.settings.idleTimeout.isSome = true ∧ c.byteCount < c'.byteCount then some now
    else c.node.lastByte
  idle : c'.byteCount = c.byteCount → c.node.assembler.isIdle = true →
    c'.node.assembler.isIdle = true

namespace Passes

variable {now : Nat} {c c' c'' : Chronicle σ}

theorem of_silent (settings : c'.node.settings = c.node.settings)
    (count : c'.byteCount = c.byteCount) (last : c'.node.lastByte = c.node.lastByte)
    (idle : c.node.assembler.isIdle = true → c'.node.assembler.isIdle = true) :
    Passes now c c' := by
  refine ⟨settings, Nat.le_of_eq count.symm, ?_, fun _ => idle⟩
  have hnone : ¬ (c.node.settings.idleTimeout.isSome = true ∧ c.byteCount < c'.byteCount) :=
    fun h => Nat.ne_of_gt h.2 count
  rw [last, if_neg hnone]

theorem trans (h : c.Passes now c') (h' : c'.Passes now c'') : c.Passes now c'' := by
  have hle := h.byteCount_le
  have hle' := h'.byteCount_le
  refine ⟨h'.settings_eq.trans h.settings_eq, Nat.le_trans hle hle', ?_, fun hcount hidle => ?_⟩
  · rw [h'.lastByte_eq, h.lastByte_eq, h.settings_eq]
    by_cases hset : c.node.settings.idleTimeout.isSome = true
    · by_cases hlater : c'.byteCount < c''.byteCount
      · rw [if_pos ⟨hset, hlater⟩, if_pos ⟨hset, Nat.lt_of_le_of_lt hle hlater⟩]
      · have heq : c''.byteCount = c'.byteCount := Nat.le_antisymm (Nat.le_of_not_lt hlater) hle'
        rw [if_neg fun both => hlater both.2, heq]
    · rw [if_neg fun both => hset both.1, if_neg fun both => hset both.1,
        if_neg fun both => hset both.1]
  · exact h'.idle (by omega) (h.idle (by omega) hidle)

theorem receive (now : Nat) (byte : UInt8) (c : Chronicle σ) :
    c.Passes now (c.receive now byte) := by
  have hcount := byteCount_receive now byte c
  have hlast := c.node.lastByte_receive now byte c.world
  obtain ⟨counters, lastByte, hnode⟩ := c.node.receive_node now byte c.world
  refine ⟨?_, by omega, ?_, fun heq => by omega⟩
  · simp only [Chronicle.receive, note, hnode]
  · have hlt : c.byteCount < (c.receive now byte).byteCount := by omega
    simp only [hlt, and_true]
    exact hlast

theorem receiveAll (now : Nat) (bytes : List UInt8) (c : Chronicle σ) :
    c.Passes now (c.receiveAll now bytes) := by
  induction bytes generalizing c with
  | nil => exact of_silent rfl rfl rfl id
  | cons byte rest ih => exact (receive now byte c).trans (ih (c.receive now byte))

theorem drain (inbox : Place σ ByteQueue) (now looks : Nat) (c : Chronicle σ) :
    c.Passes now (c.drain inbox now looks) := by
  induction looks generalizing c with
  | zero => exact of_silent rfl rfl rfl id
  | succ looks ih =>
    simp only [Chronicle.drain]
    split
    · exact of_silent rfl rfl rfl id
    · rename_i byte world hpop
      have hpopped : c.Passes now { c with world } := of_silent rfl rfl rfl id
      exact (hpopped.trans (receive now byte _)).trans (ih _)

theorem sent (now : Nat) (c : Chronicle σ) (packet : Packet) :
    c.Passes now (c.send packet) := by
  obtain ⟨counters, hnode⟩ := c.node.send_node packet c.world
  refine of_silent ?_ rfl ?_ ?_ <;> simp only [Chronicle.send, hnode, imp_self]

/-- A question whether the frame in progress has expired leaves at most less of it. -/
theorem expiry (now : Nat) (c : Chronicle σ) {answer : Bool} {n : Node σ}
    (asked : (answer, n) = (false, c.node) ∨ (answer, n) = c.node.expire) :
    c.Passes now (c.note (.expiry answer) n c.world) := by
  have hcount := byteCount_expiry answer n c.world c
  obtain ⟨assembler, idleResets, hnode⟩ := c.node.expire_node
  have hidle := c.node.isIdle_expire
  rcases asked with hkept | hexpired
  · cases hkept
    exact of_silent rfl hcount rfl id
  · obtain rfl : n = c.node.expire.2 := congrArg Prod.snd hexpired
    refine of_silent ?_ hcount ?_ fun _ => hidle
    · simp only [note, hnode]
    · simp only [note, hnode]

theorem step (move : Node.Move σ) (c : Chronicle σ) : c.Passes move.clock (c.step move) := by
  cases move with
  | receive now byte => exact receive now byte c
  | receiveAll now bytes =>
    rw [step_receiveAll]
    exact receiveAll now bytes c
  | drain inbox now looks =>
    rw [step_drain]
    exact drain inbox now looks c
  | send packet => exact sent _ c packet
  | sendTo destination opCode payload => exact sent _ c ⟨_, destination, opCode, payload⟩
  | setHandler handler => exact of_silent rfl rfl rfl id
  | setSink sink => exact of_silent rfl rfl rfl id
  | checkIdle now => exact expiry _ c (c.node.checkIdle_eq now)
  | expire => exact expiry _ c (.inr rfl)
  | reset =>
    refine of_silent rfl ?_ rfl fun _ => rfl
    simp [byteCount, Chronicle.step, note, Event.isByte]
  | outside update => exact of_silent rfl rfl rfl id

end Passes

end Chronicle

/-- A history with the time at which each of its bytes came. -/
structure Timeline (σ : Type) where
  chronicle : Chronicle σ
  arrivals : List Nat := []

namespace Timeline

def step (t : Timeline σ) (move : Node.Move σ) : Timeline σ :=
  let c := t.chronicle.step move
  { chronicle := c
    arrivals :=
      t.arrivals ++ List.replicate (c.byteCount - t.chronicle.byteCount) move.clock }

def run (t : Timeline σ) (moves : List (Node.Move σ)) : Timeline σ :=
  moves.foldl step t

/-- As much time as the time-out has passed since the last byte, with a frame in progress. A
clock reading before that byte counts as no time. -/
def Stale (now : Nat) (t : Timeline σ) : Prop :=
  t.chronicle.node.assembler.isIdle = false ∧
    ∃ ms last, t.chronicle.node.settings.idleTimeout = some ms ∧ t.arrivals.getLast? = some last ∧
      ms.toNat * 1000000 ≤ now - last

/-- Where a time-out is set the time of the last byte is kept, whatever became of that byte, and
no frame is in progress before the first one. -/
structure Current (settings : Settings) (t : Timeline σ) : Prop where
  settings_eq : t.chronicle.node.settings = settings
  lastByte_eq : t.chronicle.node.lastByte =
    if settings.idleTimeout.isSome then t.arrivals.getLast? else none
  idle : t.arrivals = [] → t.chronicle.node.assembler.isIdle = true

variable {settings : Settings} {t : Timeline σ}

theorem arrivals_step_eq_iff (move : Node.Move σ) :
    (t.step move).arrivals = t.arrivals ↔
      (t.step move).chronicle.byteCount = t.chronicle.byteCount := by
  have hle := (Chronicle.Passes.step move t.chronicle).byteCount_le
  simp only [step, List.append_right_eq_self, List.replicate_eq_nil_iff]
  omega

theorem Current.step (h : t.Current settings) (move : Node.Move σ) :
    (t.step move).Current settings := by
  have hpasses := Chronicle.Passes.step move t.chronicle
  have hsettings := hpasses.settings_eq.trans h.settings_eq
  by_cases hcount : (t.chronicle.step move).byteCount = t.chronicle.byteCount
  · have harrivals : (t.step move).arrivals = t.arrivals := (arrivals_step_eq_iff move).mpr hcount
    refine ⟨hsettings, ?_, fun hnone => ?_⟩
    · rw [harrivals, ← h.lastByte_eq]
      refine hpasses.lastByte_eq.trans (if_neg fun hboth => ?_)
      exact Nat.ne_of_gt hboth.2 hcount
    · exact hpasses.idle hcount (h.idle (harrivals.symm.trans hnone))
  · have hlt : t.chronicle.byteCount < (t.chronicle.step move).byteCount :=
      Nat.lt_of_le_of_ne hpasses.byteCount_le (Ne.symm hcount)
    have hpos : (t.chronicle.step move).byteCount - t.chronicle.byteCount ≠ 0 := by omega
    have hlast : (t.step move).arrivals.getLast? = some move.clock := by
      simp [Timeline.step, List.getLast?_append, List.getLast?_replicate, hpos]
    refine ⟨hsettings, ?_, fun hnone => ?_⟩
    · rw [hlast]
      refine hpasses.lastByte_eq.trans ?_
      rw [h.settings_eq, h.lastByte_eq]
      cases settings.idleTimeout.isSome <;> simp [hlt]
    · rw [hnone] at hlast
      cases hlast

theorem Current.run (h : t.Current settings) (moves : List (Node.Move σ)) :
    (t.run moves).Current settings := by
  induction moves generalizing t with
  | nil => exact h
  | cons move rest ih => exact ih (h.step move)

theorem length_arrivals_run (moves : List (Node.Move σ)) (t : Timeline σ) :
    t.arrivals.length ≤ (t.run moves).arrivals.length := by
  induction moves generalizing t with
  | nil => exact Nat.le_refl _
  | cons move rest ih =>
    refine Nat.le_trans ?_ (ih (t.step move))
    simp [step]

theorem idle_run {moves : List (Node.Move σ)} (quiet : (t.run moves).arrivals = t.arrivals)
    (idle : t.chronicle.node.assembler.isIdle = true) :
    (t.run moves).chronicle.node.assembler.isIdle = true := by
  induction moves generalizing t with
  | nil => exact idle
  | cons move rest ih =>
    have hlater := length_arrivals_run rest (t.step move)
    have hfirst : (t.step move).arrivals = t.arrivals := by
      have hlength : ((t.step move).run rest).arrivals.length = t.arrivals.length :=
        congrArg List.length quiet
      have hzero : (List.replicate ((t.chronicle.step move).byteCount - t.chronicle.byteCount)
          move.clock).length = 0 := by
        simp only [step, List.length_append] at hlater hlength ⊢
        omega
      rw [step, List.length_eq_zero_iff.mp hzero, List.append_nil]
    have hidle := (Chronicle.Passes.step move t.chronicle).idle
      ((arrivals_step_eq_iff move).mp hfirst) idle
    exact ih (quiet.trans hfirst.symm) hidle

/-- A frame in progress began with a byte, so there is a last one. -/
theorem Current.kept_of_busy (h : t.Current settings) {ms : UInt64}
    (set : settings.idleTimeout = some ms) (busy : t.chronicle.node.assembler.isIdle = false) :
    ∃ last, t.arrivals.getLast? = some last ∧ t.chronicle.node.lastByte = some last := by
  have hsomething : t.arrivals.getLast? ≠ none := by
    intro hnone
    cases busy.symm.trans (h.idle (List.getLast?_eq_none_iff.mp hnone))
  obtain ⟨last, hlast⟩ := Option.ne_none_iff_exists'.mp hsomething
  refine ⟨last, hlast, h.lastByte_eq.trans ?_⟩
  rw [set, hlast, Option.isSome_some, if_pos rfl]

theorem arrivals_checkIdle (now : Nat) : (t.step (.checkIdle now)).arrivals = t.arrivals := by
  simp [step, Chronicle.step]

theorem Current.checkIdle_cases (h : t.Current settings) (now : Nat) :
    let n := t.chronicle.node
    (t.Stale now ∧ n.checkIdle now = (true, n.lapsed)) ∨
      (¬ t.Stale now ∧ n.checkIdle now = (false, n)) := by
  intro n
  have hsettings : n.settings = settings := h.settings_eq
  cases hidle : n.assembler.isIdle with
  | true =>
    refine .inr ⟨fun hstale => Bool.noConfusion (hidle.symm.trans hstale.1), ?_⟩
    rcases n.checkIdle_eq now with hcheck | hcheck
    · exact hcheck
    · rw [hcheck, Node.expire_of_idle hidle]
  | false =>
    cases hset : settings.idleTimeout with
    | none =>
      have hnone : n.settings.idleSpan = none := by
        rw [hsettings, Settings.idleSpan, hset]
        rfl
      refine .inr ⟨?_, by rw [Node.checkIdle, hnone]⟩
      rintro ⟨-, ms, last, hms, -⟩
      cases (hms.symm.trans (congrArg Settings.idleTimeout hsettings)).trans hset
    | some ms =>
      have hsome : n.settings.idleSpan = some (.ofMillis ms) := by
        rw [hsettings, Settings.idleSpan, hset]
        rfl
      obtain ⟨last, hlast, hkept⟩ := h.kept_of_busy hset hidle
      have hstale : t.Stale now ↔ ms.toNat * 1000000 ≤ now - last := by
        have hbusy : t.chronicle.node.assembler.isIdle = false := hidle
        simp [Stale, hbusy, h.settings_eq, hset, hlast]
      rw [Node.checkIdle_of_kept hsome hkept (Span.toNanos_ofMillis ms), hstale,
        Node.expire_of_busy hidle]
      by_cases hlate : ms.toNat * 1000000 ≤ now - last
      · exact .inl ⟨hlate, if_pos hlate⟩
      · exact .inr ⟨hlate, if_neg hlate⟩

theorem current_of_built {address : UInt8} {handler : Option (Handler σ)} {sink : Option (Sink σ)}
    {start : Node σ} (built : Node.build (some address) settings handler sink = .ok start)
    (world : σ) : Current settings ⟨⟨start, world, []⟩, []⟩ := by
  obtain ⟨-, rfl⟩ := Node.build_ok built
  exact ⟨rfl, (ite_self none).symm, fun _ => rfl⟩

/-- Whatever has been done with a node, a frame in progress is dropped as stale exactly when a
time-out is set and that much time has passed since the last byte. Then nothing is in progress
and one more drop is counted, and until another byte comes nothing else is dropped; otherwise
nothing changes at all. So every frame that comes to a stop is dropped in the end. -/
theorem stale_exactly {address : UInt8} {settings : Settings} {handler : Option (Handler σ)}
    {sink : Option (Sink σ)} {start : Node σ}
    (built : Node.build (some address) settings handler sink = .ok start) (world : σ)
    (moves : List (Node.Move σ)) :
    let t := run ⟨⟨start, world, []⟩, []⟩ moves
    let n := t.chronicle.node
    (∀ now,
      let asked := n.checkIdle now
      (asked.1 = true ↔ n.assembler.isIdle = false ∧ ∃ ms last,
        settings.idleTimeout = some ms ∧ t.arrivals.getLast? = some last ∧
          ms.toNat * 1000000 ≤ now - last) ∧
        (asked.1 = false → asked.2 = n) ∧
        (asked.1 = true →
          asked.2 = { n with
            assembler := { n.assembler with phase := .source, cursor := 0 }
            counters.idleResets := n.counters.idleResets + 1 } ∧
          ∀ more, ((t.step (.checkIdle now)).run more).arrivals = t.arrivals → ∀ later,
            (((t.step (.checkIdle now)).run more).chronicle.node.checkIdle later).1 = false)) ∧
      ∀ ms, settings.idleTimeout = some ms → n.assembler.isIdle = false → ∃ last,
        t.arrivals.getLast? = some last ∧ n.lastByte = some last ∧
          ∀ now, last + ms.toNat * 1000000 ≤ now → (n.checkIdle now).1 = true := by
  intro t n
  have h : t.Current settings := (current_of_built built world).run moves
  have hstale : ∀ now, t.Stale now ↔ n.assembler.isIdle = false ∧ ∃ ms last,
      settings.idleTimeout = some ms ∧ t.arrivals.getLast? = some last ∧
        ms.toNat * 1000000 ≤ now - last := by
    intro now
    rw [Stale, h.settings_eq]
  refine ⟨fun now => ?_, fun ms hset hbusy => ?_⟩
  · rcases h.checkIdle_cases now with ⟨hlate, hdropped⟩ | ⟨hfresh, hkept⟩
    · rw [← hstale, hdropped]
      refine ⟨iff_of_true rfl hlate, nofun, fun _ => ⟨rfl, fun more quiet later => ?_⟩⟩
      have hidle : (t.step (.checkIdle now)).chronicle.node.assembler.isIdle = true :=
        congrArg (·.2.assembler.isIdle) hdropped
      have hlater := idle_run (quiet.trans (arrivals_checkIdle now).symm) hidle
      rcases ((h.step (.checkIdle now)).run more).checkIdle_cases later with
        ⟨hstale', -⟩ | ⟨-, hkept'⟩
      · cases hlater.symm.trans hstale'.1
      · exact congrArg Prod.fst hkept'
    · rw [← hstale, hkept]
      exact ⟨iff_of_false nofun hfresh, fun _ => rfl, nofun⟩
  · obtain ⟨last, hlast, hkept⟩ := h.kept_of_busy hset hbusy
    refine ⟨last, hlast, hkept, fun now hlate => ?_⟩
    have hnow : t.Stale now :=
      (hstale now).mpr ⟨hbusy, ms, last, hset, hlast, by omega⟩
    rcases h.checkIdle_cases now with ⟨-, hdropped⟩ | ⟨hfresh, -⟩
    · exact congrArg Prod.fst hdropped
    · exact absurd hnow hfresh

/-- A completed frame, a refused length, a reset in a header, three bytes out of a buffer, and
questions with the clock set back and one nanosecond too early. -/
def stoppedTraffic : List (Node.Move ByteQueue) :=
  [.receiveAll 1000000 [9, 2, 7, 0], .receiveAll 2000000 [9, 2, 7, 200], .receive 3000000 9,
    .reset, .outside (ByteQueue.accept [9, 2, 7]), .drain .whole 4000000 8, .checkIdle 0,
    .send ⟨2, 9, 1, []⟩, .checkIdle 8999999]

theorem stale_exactly_stopped :
    let settings : Settings := { payloadBound := 4, idleTimeout := some 5 }
    let start : Node ByteQueue := { address := 2, settings, assembler := .withBound 4 }
    let t := run ⟨⟨start, ⟨8, []⟩, []⟩, []⟩ stoppedTraffic
    let n := t.chronicle.node
    let more : List (Node.Move ByteQueue) := [.send ⟨2, 9, 1, []⟩, .reset, .drain .whole 0 4]
    Node.build (some 2) settings none none = .ok start ∧
      n.assembler.isIdle = false ∧ t.arrivals.getLast? = some 4000000 ∧
      (n.checkIdle 9000000).1 = true ∧ (n.checkIdle 9000000).2.counters.idleResets = 1 ∧
      (((t.step (.checkIdle 9000000)).run more).chronicle.node.checkIdle 99000000).1 = false := by
  intro settings start
  have built : Node.build (some 2) settings none none = .ok start := rfl
  have hbusy : (run ⟨⟨start, ⟨8, []⟩, []⟩, []⟩ stoppedTraffic).chronicle.node.assembler.isIdle =
      false := by decide +kernel
  have hlast : (run ⟨⟨start, ⟨8, []⟩, []⟩, []⟩ stoppedTraffic).arrivals.getLast? =
      some 4000000 := by decide +kernel
  have hresets :
      (run ⟨⟨start, ⟨8, []⟩, []⟩, []⟩ stoppedTraffic).chronicle.node.counters.idleResets = 0 := by decide +kernel
  have quiet : (((run ⟨⟨start, ⟨8, []⟩, []⟩, []⟩ stoppedTraffic).step (.checkIdle 9000000)).run
      [.send ⟨2, 9, 1, []⟩, .reset, .drain .whole 0 4]).arrivals =
      (run ⟨⟨start, ⟨8, []⟩, []⟩, []⟩ stoppedTraffic).arrivals := by decide +kernel
  obtain ⟨hasked, -⟩ := stale_exactly built ⟨8, []⟩ stoppedTraffic
  obtain ⟨hiff, -, hdropped⟩ := hasked 9000000
  have hstale := hiff.mpr ⟨hbusy, 5, 4000000, rfl, hlast, by decide⟩
  obtain ⟨hafter, hlater⟩ := hdropped hstale
  refine ⟨built, hbusy, hlast, hstale, ?_, hlater _ quiet 99000000⟩
  rw [hafter, hresets]
  rfl

end Timeline

end TwoWire
