import Mathlib.Data.List.DropRight
import Mathlib.Data.List.Range
import TwoWire.Proofs.LinePorts

/-! The law of a shared line: what becomes of every byte over any history of attaching,
starting, transmitting, reading and stopping, by any number of nodes in any order. -/

namespace TwoWire

inductive LineCall where
  | attach
  /-- Starts the driver of a connection with an empty buffer. -/
  | start (node capacity : Nat)
  | transmit (node : Nat) (bytes : List UInt8)
  | stop (node : Nat)
  | setShorted (on : Bool)
  | read (node : Nat)
  | readInto (node : Nat) (out : List UInt8)
  | flush (node : Nat)

/-- What came of a call; of a transmission also the line that it met. -/
inductive LineEvent where
  | attached (node : Nat)
  | started (node : Nat) (result : Except LinkError Unit)
  | transmitted (node : Nat) (bytes : List UInt8) (before : SharedLine)
      (result : Except LinkError Unit)
  | stopped (node : Nat)
  | took (node : Nat) (bytes : List UInt8)
  | flushed (node : Nat)

namespace LineEvent

def attached? : LineEvent → Option Nat
  | attached node => some node
  | _ => none

def starts (i : Nat) : LineEvent → Bool
  | started node (.ok ()) => node == i
  | _ => false

def stops (i : Nat) : LineEvent → Bool
  | stopped node => node == i
  | _ => false

def flushes (i : Nat) : LineEvent → Bool
  | flushed node => node == i
  | _ => false

def carried : LineEvent → List UInt8
  | transmitted _ bytes _ (.ok ()) => bytes
  | _ => []

/-- The bytes that others put on the line. -/
def brings (i : Nat) : LineEvent → List UInt8
  | transmitted node bytes _ (.ok ()) => if node = i then [] else bytes
  | _ => []

def overruns (i : Nat) : LineEvent → Bool
  | transmitted node bytes before (.ok ()) =>
    let q := (SharedLine.buffer i).get before
    node != i && q.capacity - q.length < bytes.length
  | _ => false

def takes (i : Nat) : LineEvent → List UInt8
  | took node bytes => if node = i then bytes else []
  | _ => []

def since (i : Nat) (events : List LineEvent) : List LineEvent :=
  events.rtakeWhile fun e => !e.starts i

def taken (i : Nat) (events : List LineEvent) : List UInt8 :=
  (since i events).flatMap (·.takes i)

def heard (i : Nat) (events : List LineEvent) : List UInt8 :=
  (since i events).flatMap (·.brings i)

def live (i : Nat) (events : List LineEvent) : Bool :=
  events.any (·.starts i) && !events.any (·.stops i)

def spared (i : Nat) (e : LineEvent) : Bool :=
  !e.flushes i && !e.overruns i

theorem since_concat {i : Nat} {e : LineEvent} (h : e.starts i = false) (events : List LineEvent) :
    since i (events ++ [e]) = since i events ++ [e] := by
  rw [since, List.rtakeWhile_concat]
  simp [h, since]

theorem since_start {i : Nat} {e : LineEvent} (h : e.starts i = true) (events : List LineEvent) :
    since i (events ++ [e]) = [] := by
  rw [since, List.rtakeWhile_concat]
  simp [h]

end LineEvent

open LineEvent (since live)

structure LineHistory (τ : Type) where
  net : Network τ
  events : List LineEvent := []

variable {τ : Type}

namespace LineHistory

def empty (limit : Nat) (rest : τ) : LineHistory τ :=
  { net := { line := .withTranscript limit, rest } }

def note (e : LineEvent) (net : Network τ) (h : LineHistory τ) : LineHistory τ :=
  ⟨net, h.events ++ [e]⟩

/-- A driver is started once, and it transmits and can be stopped until it is stopped. Its
buffer outlives it. -/
def step (h : LineHistory τ) : LineCall → LineHistory τ
  | .attach =>
    let (node, net) := h.net.attach
    h.note (.attached node) net
  | .start node capacity =>
    if (h.net.line.listening node).isSome then h
    else
      let (result, net) := h.net.start node { capacity }
      h.note (.started node result) net
  | .transmit node bytes =>
    if (h.net.line.listening node).isSome then
      let (result, net) := h.net.transmit node bytes
      h.note (.transmitted node bytes h.net.line result) net
    else h
  | .stop node =>
    if (h.net.line.listening node).isSome then h.note (.stopped node) (h.net.stop node).2 else h
  | .setShorted on => { h with net := { h.net with line := h.net.line.setShorted on } }
  | .read node =>
    let (result, net) := (Network.buffer node).run ByteQueue.pop h.net
    h.note (.took node result.toOption.toList) net
  | .readInto node out =>
    let q := (Network.buffer node).get h.net
    let (count, out, q) := q.readInto out
    h.note (.took node (out.take count)) ((Network.buffer node).set q h.net)
  | .flush node =>
    let q := (Network.buffer node).get h.net
    h.note (.flushed node) ((Network.buffer node).set q.clear h.net)

def run (h : LineHistory τ) (calls : List LineCall) : LineHistory τ :=
  calls.foldl step h

end LineHistory

namespace LineEvent

/-- What an event says about a connection is what becomes of it. -/
structure Explains (i : Nat) (line : SharedLine) (change : Port → Port) (e : LineEvent) : Prop where
  starts : e.starts i = false
  attached : ∀ port, (change port).1 = (port.1 && !e.stops i)
  buffer : ∀ port, (change port).2.isSome = port.2.isSome
  balance : ∀ q q', line.port i = some (true, some q) → change (true, some q) = (true, some q') →
    e.spared i = true → e.takes i ++ q'.bytes = q.bytes ++ e.brings i

theorem Explains.silent {i : Nat} {e : LineEvent} (line : SharedLine) (starts : e.starts i = false)
    (stops : e.stops i = false) (takes : e.takes i = []) (brings : e.brings i = []) :
    e.Explains i line id where
  starts := starts
  attached port := by simp [stops]
  buffer _ := rfl
  balance q q' _ hq _ := by
    cases hq
    rw [takes, brings]
    simp

end LineEvent

namespace LineHistory

/-- What the events so far tell about a connection. -/
structure Known (i : Nat) (h : LineHistory τ) : Prop where
  started : h.events.any (·.starts i) = (h.net.line.port i).any (·.2.isSome)
  stopped : h.events.any (·.stops i) = (h.net.line.port i).any (!·.1)
  balance : ∀ q, h.net.line.port i = some (true, some q) →
    (∀ e ∈ since i h.events, e.spared i = true) →
      LineEvent.taken i h.events ++ q.bytes = LineEvent.heard i h.events

structure Lawful (h : LineHistory τ) : Prop where
  issued : h.events.filterMap LineEvent.attached? = List.range h.net.line.taps.length
  counted : h.net.line.bytesWritten = (h.events.flatMap LineEvent.carried).length.toUInt64
  known : ∀ i, h.Known i

variable {h : LineHistory τ}

theorem Known.note {i : Nat} (known : h.Known i) {net : Network τ} {e : LineEvent}
    {change : Port → Port} (hport : net.line.port i = (h.net.line.port i).map change)
    (explains : e.Explains i h.net.line change)
    (stops : e.stops i = true → (h.net.line.port i).isSome = true) : (h.note e net).Known i where
  started := by
    have hany : (h.events ++ [e]).any (·.starts i) = h.events.any (·.starts i) := by
      simp [explains.starts]
    simp only [LineHistory.note, hany, known.started, hport]
    cases h.net.line.port i with
    | none => rfl
    | some port => exact (explains.buffer port).symm
  stopped := by
    have hany : (h.events ++ [e]).any (·.stops i) = (h.events.any (·.stops i) || e.stops i) := by
      simp
    simp only [LineHistory.note, hany, known.stopped, hport]
    cases hp : h.net.line.port i with
    | none =>
      have hnot : e.stops i = false := by
        cases he : e.stops i with
        | false => rfl
        | true => simp [hp] at stops; exact absurd he (by simp [stops])
      simp [hnot]
    | some port => simp [explains.attached]
  balance q' hq' spared := by
    have hsince : since i (h.events ++ [e]) = since i h.events ++ [e] :=
      LineEvent.since_concat explains.starts h.events
    simp only [LineHistory.note, hsince, List.forall_mem_append, List.forall_mem_singleton] at spared
    rw [LineHistory.note] at hq'
    simp only [hport, Option.map_eq_some_iff] at hq'
    obtain ⟨⟨attached, buffer⟩, hp, hchange⟩ := hq'
    have hattached := explains.attached (attached, buffer)
    have hbuffer := explains.buffer (attached, buffer)
    simp only [hchange, Option.isSome_some] at hattached hbuffer
    obtain ⟨q, rfl⟩ := Option.isSome_iff_exists.mp hbuffer.symm
    have htrue : attached = true := by
      cases attached with
      | true => rfl
      | false => simp at hattached
    subst htrue
    have hbefore := known.balance q hp spared.1
    have hlast := explains.balance q q' hp hchange spared.2
    simp only [LineEvent.taken, LineEvent.heard, LineHistory.note, hsince, List.flatMap_append,
      List.flatMap_singleton] at hbefore ⊢
    rw [List.append_assoc, hlast, ← List.append_assoc, hbefore]

theorem Lawful.note (lawful : h.Lawful) {net : Network τ} {e : LineEvent}
    {change : Nat → Port → Port}
    (becomes : SharedLine.Becomes change e.carried.length h.net.line net.line)
    (old : e.attached? = none) (explains : ∀ i, e.Explains i h.net.line (change i))
    (stops : ∀ i, e.stops i = true → (h.net.line.port i).isSome = true) : (h.note e net).Lawful where
  issued := by
    simp only [LineHistory.note, List.filterMap_append, lawful.issued, becomes.length_eq]
    simp [old]
  counted := by
    simp only [LineHistory.note, becomes.bytesWritten_eq, lawful.counted, List.flatMap_append,
      List.length_append]
    simp
  known i := (lawful.known i).note (becomes.port_eq i) (explains i) (stops i)

theorem Known.live_eq {i : Nat} (known : h.Known i) :
    live i h.events = (h.net.line.listening i).isSome := by
  rw [live, known.started, known.stopped, SharedLine.listening_eq_port]
  rcases h.net.line.port i with _ | ⟨_ | _, _ | _⟩ <;> rfl

theorem Lawful.attach (lawful : h.Lawful) :
    (h.note (.attached h.net.attach.1) h.net.attach.2).Lawful where
  issued := by
    have hlength : h.net.attach.2.line.taps.length = h.net.line.taps.length + 1 := by
      simp [Network.attach, SharedLine.attach]
    simp only [LineHistory.note, List.filterMap_append, lawful.issued, hlength, List.range_succ]
    rfl
  counted := by
    simp only [LineHistory.note, List.flatMap_append, List.length_append]
    exact lawful.counted
  known i := by
    have hport := h.net.line.port_attach i
    have hknown := lawful.known i
    by_cases hi : i = h.net.line.taps.length
    · -- A new connection: nothing is known of it yet, and nothing has happened to it.
      have hnone : h.net.line.port i = none := by simp [SharedLine.port, hi]
      have hstarted := hknown.started
      have hstopped := hknown.stopped
      rw [hnone] at hstarted hstopped
      rw [if_pos hi] at hport
      refine ⟨?_, ?_, fun q hq => ?_⟩
      · simp only [LineHistory.note, List.any_append, hstarted, Network.attach, hport]
        rfl
      · simp only [LineHistory.note, List.any_append, hstopped, Network.attach, hport]
        rfl
      · simp only [LineHistory.note, Network.attach, hport] at hq
        cases hq
    · rw [if_neg hi, ← Option.map_id_apply (x := h.net.line.port i)] at hport
      exact hknown.note hport (.silent _ rfl rfl rfl rfl) fun stops => (Bool.false_ne_true stops).elim

theorem Known.start {node i : Nat} (known : h.Known i) {net : Network τ} {buffer : ByteQueue}
    {old : Option ByteQueue} (attached : h.net.line.port node = some (true, old))
    (empty : buffer.bytes = [])
    (hport : net.line.port i = (h.net.line.port i).map
      (Port.only node (fun port => (port.1, some buffer)) i)) :
    (h.note (.started node (.ok ())) net).Known i := by
  by_cases hi : node = i
  · subst hi
    have hstopped := known.stopped
    have hstarts : LineEvent.starts node (.started node (.ok ())) = true := by
      simp [LineEvent.starts]
    simp only [attached, Port.only, ↓reduceIte, Option.map_some] at hport hstopped
    refine ⟨?_, ?_, fun q hq _ => ?_⟩
    · simp only [LineHistory.note, hport, List.any_append, List.any_cons, hstarts]
      simp
    · simp only [LineHistory.note, hport, List.any_append, hstopped]
      rfl
    · simp only [LineHistory.note, hport, Option.some.injEq, Prod.mk.injEq, true_and] at hq
      subst hq
      simp only [LineEvent.taken, LineEvent.heard, LineHistory.note, LineEvent.since_start hstarts,
        empty]
      rfl
  · have hsilent : LineEvent.starts i (.started node (.ok ())) = false := by
      simp [LineEvent.starts, hi]
    simp only [Port.only, hi, ↓reduceIte] at hport
    exact known.note hport (.silent _ hsilent rfl rfl rfl) fun stops => (Bool.false_ne_true stops).elim

theorem Lawful.start (lawful : h.Lawful) (node capacity : Nat) :
    (h.note (.started node (h.net.start node { capacity }).1)
      (h.net.start node { capacity }).2).Lawful := by
  rcases h.net.start_cases node { capacity } with ⟨⟨cause, hresult⟩, hline⟩ |
    ⟨hresult, ⟨old, hattached⟩, hline⟩
  · rw [hresult]
    exact lawful.note hline rfl (fun i => .silent _ rfl rfl rfl rfl) nofun
  · rw [hresult]
    refine ⟨?_, ?_, fun i => (lawful.known i).start hattached rfl (hline.port_eq i)⟩
    · simp only [LineHistory.note, List.filterMap_append, lawful.issued, hline.length_eq]
      simp [LineEvent.attached?]
    · simp only [LineHistory.note, hline.bytesWritten_eq, lawful.counted, List.flatMap_append,
        List.length_append]
      simp [LineEvent.carried]

theorem Lawful.transmit (lawful : h.Lawful) (node : Nat) (bytes : List UInt8) :
    (h.note (.transmitted node bytes h.net.line (h.net.transmit node bytes).1)
      (h.net.transmit node bytes).2).Lawful := by
  by_cases hrefused : bytes = [] ∨ h.net.line.shorted = true
  · obtain ⟨⟨cause, hresult⟩, hline, -⟩ := h.net.transmit_refused node hrefused
    rw [hresult]
    exact lawful.note hline rfl (fun i => .silent _ rfl rfl rfl rfl) nofun
  · obtain ⟨hne, hsound⟩ := not_or.mp hrefused
    obtain ⟨hresult, hline⟩ := h.net.transmit_taken node hne (Bool.eq_false_iff.mpr hsound)
    rw [hresult]
    refine lawful.note hline rfl (fun i => ?_) nofun
    by_cases hi : node = i
    · have hbrings : LineEvent.brings i (.transmitted node bytes h.net.line (.ok ())) = [] := by
        simp [LineEvent.brings, hi]
      simp only [Port.except, hi, ↓reduceIte]
      rw [hi] at hbrings
      exact .silent _ rfl rfl rfl hbrings
    · simp only [Port.except, hi, ↓reduceIte]
      refine ⟨rfl, fun port => ?_, fun port => ?_, fun q q' hq hq' spared => ?_⟩
      · rcases port with ⟨_ | _, _⟩ <;> rfl
      · rcases port with ⟨_ | _, _ | _⟩ <;> rfl
      · -- There is room for all that is brought.
        have hbuffer : (SharedLine.buffer i).get h.net.line = q := by
          rw [SharedLine.buffer_eq_port, hq]
          rfl
        have hroom : bytes.length ≤ q.capacity - q.length := by
          simpa [LineEvent.spared, LineEvent.flushes, LineEvent.overruns, hbuffer, hi] using spared
        simp only [Port.hear, ↓reduceIte, Option.map_some, Prod.mk.injEq, true_and,
          Option.some.injEq] at hq'
        subst hq'
        simp [ByteQueue.filled, List.take_of_length_le hroom, LineEvent.takes, LineEvent.brings, hi]

theorem Lawful.stop (lawful : h.Lawful) {node : Nat}
    (listens : (h.net.line.listening node).isSome = true) :
    (h.note (.stopped node) (h.net.stop node).2).Lawful := by
  have hport : (h.net.line.port node).isSome = true := by
    rw [SharedLine.listening_eq_port] at listens
    cases hp : h.net.line.port node with
    | none => simp [hp] at listens
    | some port => rfl
  obtain ⟨-, hline⟩ := h.net.stop_becomes node
  refine lawful.note hline rfl (fun i => ?_) fun i hi => ?_
  · by_cases hi : node = i
    · simp only [Port.only, hi, ↓reduceIte]
      refine ⟨rfl, fun port => ?_, fun port => ?_, fun q q' _ hq' => ?_⟩
      · simp [LineEvent.stops]
      · simp
      · cases hq'
    · have hstops : LineEvent.stops i (.stopped node) = false := by simp [LineEvent.stops, hi]
      simp only [Port.only, hi, ↓reduceIte]
      exact .silent _ rfl hstops rfl rfl
  · have heq : node = i := by simpa [LineEvent.stops] using hi
    rwa [← heq]

/-- The owner of a buffer takes bytes off its front, or flushes it. -/
theorem Lawful.own (lawful : h.Lawful) {node : Nat} {e : LineEvent} (change : ByteQueue → ByteQueue)
    (own : e = .flushed node ∨ ∃ bytes, e = .took node bytes ∧
      ((Network.buffer node).get h.net).bytes =
        bytes ++ (change ((Network.buffer node).get h.net)).bytes) :
    (h.note e ((Network.buffer node).set (change ((Network.buffer node).get h.net)) h.net)).Lawful := by
  have hline := SharedLine.becomes_step node change h.net.line
  have hcarried : e.carried.length = 0 := by
    rcases own with rfl | ⟨bytes, rfl, -⟩ <;> rfl
  have hold : e.attached? = none := by
    rcases own with rfl | ⟨bytes, rfl, -⟩ <;> rfl
  have hstops (i : Nat) : e.stops i = false := by
    rcases own with rfl | ⟨bytes, rfl, -⟩ <;> rfl
  rw [← hcarried] at hline
  refine lawful.note hline hold (fun i => ?_) fun i hi => by simp [hstops i] at hi
  by_cases hi : node = i
  · simp only [Port.only, hi, ↓reduceIte]
    rcases own with rfl | ⟨bytes, rfl, htaken⟩
    · exact ⟨rfl, fun port => by simp [LineEvent.stops], fun port => by simp,
        fun q q' _ _ spared => by simp [LineEvent.spared, LineEvent.flushes, hi] at spared⟩
    · refine ⟨rfl, fun port => by simp [LineEvent.stops], fun port => by simp,
        fun q q' hq hq' _ => ?_⟩
      have hbuffer : (Network.buffer node).get h.net = q := by
        rw [hi]
        exact (h.net.line.buffer_eq_port i).trans (by rw [hq]; rfl)
      simp only [Option.map_some, Prod.mk.injEq, true_and, Option.some.injEq] at hq'
      rw [hbuffer, hq'] at htaken
      simp [LineEvent.takes, LineEvent.brings, hi, htaken]
  · simp only [Port.only, hi, ↓reduceIte]
    rcases own with rfl | ⟨bytes, rfl, -⟩
    · exact .silent _ rfl rfl rfl rfl
    · have htakes : LineEvent.takes i (.took node bytes) = [] := by simp [LineEvent.takes, hi]
      exact .silent _ rfl rfl htakes rfl

theorem Lawful.step (lawful : h.Lawful) (call : LineCall) : (h.step call).Lawful := by
  cases call with
  | attach => exact lawful.attach
  | start node capacity =>
    simp only [LineHistory.step]
    split
    · exact lawful
    · exact lawful.start node capacity
  | transmit node bytes =>
    simp only [LineHistory.step]
    split
    · exact lawful.transmit node bytes
    · exact lawful
  | stop node =>
    simp only [LineHistory.step]
    split
    · rename_i listens
      exact lawful.stop listens
    · exact lawful
  | setShorted on => exact ⟨lawful.issued, lawful.counted, fun i =>
      ⟨(lawful.known i).started, (lawful.known i).stopped, (lawful.known i).balance⟩⟩
  | read node =>
    exact lawful.own (fun q => q.pop.2)
      (.inr ⟨_, rfl, ((Network.buffer node).get h.net).bytes_eq_pop⟩)
  | readInto node out =>
    refine lawful.own (fun q => (q.readInto out).2.2) (.inr ⟨_, rfl, ?_⟩)
    generalize (Network.buffer node).get h.net = q
    simp [ByteQueue.readInto, ByteQueue.length]
  | flush node => exact lawful.own ByteQueue.clear (.inl rfl)

theorem Lawful.empty (limit : Nat) (rest : τ) : (LineHistory.empty limit rest).Lawful where
  issued := rfl
  counted := rfl
  known i := ⟨rfl, rfl, fun q hq => by cases hq⟩

theorem Lawful.run (lawful : h.Lawful) (calls : List LineCall) : (h.run calls).Lawful := by
  induction calls generalizing h with
  | nil => exact lawful
  | cons call rest ih => exact ih (lawful.step call)

/-- What a transmission that is taken leaves in each buffer depends on that buffer alone. -/
theorem Lawful.buffer_transmit (lawful : h.Lawful) {node : Nat} {bytes : List UInt8}
    (taken : (h.net.transmit node bytes).1 = .ok ()) (i : Nat) :
    (Network.buffer i).get (h.net.transmit node bytes).2 =
      if i ≠ node ∧ live i h.events = true then ((Network.buffer i).get h.net).filled bytes
      else (Network.buffer i).get h.net := by
  obtain ⟨hne, hsound⟩ := (h.net.transmit_ok_iff node bytes).mp taken
  obtain ⟨-, hline⟩ := h.net.transmit_taken node hne hsound
  have hafter := (h.net.transmit node bytes).2.line.buffer_eq_port i
  have hbefore := h.net.line.buffer_eq_port i
  rw [hline.port_eq] at hafter
  rw [(lawful.known i).live_eq, SharedLine.listening_eq_port]
  refine hafter.trans ?_
  rw [show (Network.buffer i).get h.net = _ from hbefore]
  by_cases hi : node = i
  · simp [Port.except, hi]
  · have hi' : i ≠ node := fun he => hi he.symm
    rcases h.net.line.port i with _ | ⟨_ | _, _ | _⟩ <;>
      simp [Port.except, hi, hi', Port.hear, Port.listening]

/-- Numbers of connections are not used twice, and all that is transmitted is counted. A
transmission over a sound line goes through however full the buffers are: each listener but
the sender gets as much of it as there is room for, and nobody else gets anything. So what
a listener has read and what is in its buffer are what the others transmitted since it was
started, unless there was no room at some time or it has flushed its buffer. -/
theorem line_law (limit : Nat) (rest : τ) (calls : List LineCall) :
    let h := (LineHistory.empty limit rest).run calls
    let queue (i : Nat) (net : Network τ) : ByteQueue := (Network.buffer i).get net
    (h.events.filterMap LineEvent.attached?).Nodup ∧
      h.net.line.bytesWritten = (h.events.flatMap LineEvent.carried).length.toUInt64 ∧
      (∀ node bytes,
        let sent := h.net.transmit node bytes
        (sent.1 = .ok () ↔ bytes ≠ [] ∧ h.net.line.shorted = false) ∧
          (sent.1 ≠ .ok () → sent.2.line.transcript = h.net.line.transcript ∧
            sent.2.line.bytesWritten = h.net.line.bytesWritten ∧
            ∀ i, queue i sent.2 = queue i h.net) ∧
          (sent.1 = .ok () → ∀ i, queue i sent.2 =
            if i ≠ node ∧ live i h.events = true then
              let q := queue i h.net
              { q with bytes := q.bytes ++ bytes.take (q.capacity - q.length) }
            else queue i h.net)) ∧
      ∀ i, live i h.events = true → (∀ e ∈ since i h.events, e.spared i = true) →
        LineEvent.taken i h.events ++ (queue i h.net).bytes = LineEvent.heard i h.events := by
  intro h queue
  have lawful : h.Lawful := (Lawful.empty limit rest).run calls
  refine ⟨lawful.issued ▸ List.nodup_range, lawful.counted, fun node bytes =>
    ⟨h.net.transmit_ok_iff node bytes, fun refused => ?_, fun taken => lawful.buffer_transmit taken⟩,
    fun i hlive spared => ?_⟩
  · have hrefused : bytes = [] ∨ h.net.line.shorted = true := by
      rw [Ne, h.net.transmit_ok_iff, not_and_or, Bool.not_eq_false] at refused
      exact refused.imp_left not_not.mp
    obtain ⟨-, hline, htranscript⟩ := h.net.transmit_refused node hrefused
    refine ⟨htranscript, hline.bytesWritten_eq.trans (UInt64.add_zero _), fun i => ?_⟩
    have hafter := (h.net.transmit node bytes).2.line.buffer_eq_port i
    rw [hline.port_eq, Option.map_id_apply, ← SharedLine.buffer_eq_port] at hafter
    exact hafter
  · have hknown := lawful.known i
    rw [hknown.live_eq, SharedLine.listening_eq_port] at hlive
    have hbuffer := h.net.line.buffer_eq_port i
    rcases hp : h.net.line.port i with _ | ⟨_ | _, _ | q⟩ <;> simp [hp, Port.listening] at hlive
    have hbalance := hknown.balance q hp spared
    rw [hp] at hbuffer
    rw [show queue i h.net = q from hbuffer]
    exact hbalance

/-- Three listeners, one of which has room for two bytes only and is stopped in the end. -/
def overrunning : List LineCall :=
  [.attach, .start 0 16, .attach, .start 1 2, .attach, .start 2 16, .transmit 0 [1, 2, 3], .read 1,
    .setShorted true, .transmit 0 [9], .setShorted false, .readInto 2 [0, 0], .transmit 1 [7],
    .transmit 0 [4], .stop 1, .flush 0, .transmit 2 [5]]

theorem line_law_overrunning :
    let h := (LineHistory.empty 0 ()).run overrunning
    let queue (i : Nat) (net : Network Unit) : List UInt8 := ((Network.buffer i).get net).bytes
    live 2 h.events = true ∧ (∀ e ∈ since 2 h.events, e.spared 2 = true) ∧
      (h.net.transmit 0 []).1 ≠ .ok () ∧ (h.net.transmit 0 [6, 6]).1 = .ok () ∧
      LineEvent.taken 2 h.events ++ queue 2 h.net = [1, 2, 3, 7, 4] ∧
      queue 2 h.net = [3, 7, 4] ∧ queue 2 (h.net.transmit 0 [6, 6]).2 = [3, 7, 4, 6, 6] ∧
      queue 0 h.net = [5] ∧ queue 1 h.net = [] ∧ h.net.line.bytesWritten = 6 := by
  intro h queue
  have hlive : live 2 h.events = true := by decide +kernel
  have hspared : ∀ e ∈ since 2 h.events, e.spared 2 = true := by decide +kernel
  obtain ⟨-, hwritten, htransmit, hbalance⟩ := line_law 0 () overrunning
  obtain ⟨hok, hrefused, htaken⟩ := htransmit 0 [6, 6]
  have hsent : (h.net.transmit 0 [6, 6]).1 = .ok () := hok.mpr ⟨nofun, by decide +kernel⟩
  have hempty : (h.net.transmit 0 []).1 ≠ .ok () := fun he => ((htransmit 0 []).1.mp he).1 rfl
  have hheard : LineEvent.heard 2 h.events = [1, 2, 3, 7, 4] := by decide +kernel
  refine ⟨hlive, hspared, hempty, hsent, (hbalance 2 hlive hspared).trans hheard, by decide +kernel,
    ?_, by decide +kernel, by decide +kernel, hwritten.trans (by decide +kernel)⟩
  have hafter := congrArg ByteQueue.bytes (htaken hsent 2)
  exact hafter.trans (by decide +kernel)

end LineHistory

end TwoWire
