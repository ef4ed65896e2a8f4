import TwoWire.Proofs.LineTraffic

/-! The connections of a line as far as bytes go: whether each is attached, and what is in
its buffer. Every operation on the line is known by what it does to each connection. -/

namespace TwoWire

variable {τ : Type}

namespace ByteQueue

/-- The queue behind as much of some bytes as there is room for. -/
def filled (bytes : List UInt8) (q : ByteQueue) : ByteQueue :=
  { q with bytes := q.bytes ++ bytes.take (q.capacity - q.length) }

theorem accept_eq_filled (bytes : List UInt8) (q : ByteQueue) : q.accept bytes = q.filled bytes := by
  induction bytes generalizing q with
  | nil => simp [accept, pushAll, filled]
  | cons byte rest ih =>
    by_cases hfull : q.capacity ≤ q.bytes.length
    · have hpush : q.push byte = (.error .bufferFull, q) := by simp [push, isFull, length, hfull]
      have hrest := ih q
      simp only [accept, pushAll, hpush] at hrest ⊢
      rw [hrest, filled, filled, length, Nat.sub_eq_zero_of_le hfull, List.take_zero, List.take_zero]
    · have hpush : q.push byte = (.ok (), { q with bytes := q.bytes ++ [byte] }) := by
        simp [push, isFull, length, hfull]
      have hrest := ih { q with bytes := q.bytes ++ [byte] }
      have hfree : q.capacity - q.bytes.length = q.capacity - (q.bytes.length + 1) + 1 := by omega
      simp only [accept, pushAll, hpush] at hrest ⊢
      rw [hrest]
      simp [filled, length, hfree]

theorem bytes_eq_pop (q : ByteQueue) : q.bytes = q.pop.1.toOption.toList ++ q.pop.2.bytes := by
  unfold pop
  split <;> simp [Except.toOption, *]

end ByteQueue

/-- Whether a connection is attached, and its buffer once it has listened. -/
abbrev Port := Bool × Option ByteQueue

def Port.hear (bytes : List UInt8) (port : Port) : Port :=
  if port.1 then (true, port.2.map (·.filled bytes)) else port

def Port.listening (port : Port) : Option ByteQueue :=
  if port.1 then port.2 else none

def Port.only (node : Nat) (change : Port → Port) (i : Nat) : Port → Port :=
  if node = i then change else id

def Port.except (node : Nat) (change : Port → Port) (i : Nat) : Port → Port :=
  if node = i then id else change

namespace SharedLine

def port (i : Nat) (l : SharedLine) : Option Port :=
  (l.taps[i]?).map fun t => (t.attached, t.buffer)

theorem listening_eq_port (i : Nat) (l : SharedLine) :
    l.listening i = (l.port i).bind Port.listening := by
  simp only [listening, port]
  cases l.taps[i]? <;> rfl

theorem buffer_eq_port (i : Nat) (l : SharedLine) :
    (SharedLine.buffer i).get l = ((l.port i).bind (·.2)).getD { capacity := 0 } := by
  simp only [buffer, port]
  cases l.taps[i]? <;> rfl

theorem port_attach (i : Nat) (l : SharedLine) :
    l.attach.2.port i = if i = l.taps.length then some (true, none) else l.port i := by
  simp only [attach, port, List.getElem?_append]
  by_cases hlt : i < l.taps.length
  · have hne : i ≠ l.taps.length := by omega
    simp [hlt, hne]
  · by_cases hi : i = l.taps.length
    · simp [hi]
    · have hpos : i - l.taps.length ≠ 0 := by omega
      simp [hlt, hi, hpos]

/-- Every connection changes on its own, none is added, and so many bytes are counted. -/
structure Becomes (change : Nat → Port → Port) (written : Nat) (l l' : SharedLine) : Prop where
  port_eq : ∀ i, l'.port i = (l.port i).map (change i)
  length_eq : l'.taps.length = l.taps.length
  bytesWritten_eq : l'.bytesWritten = l.bytesWritten + written.toUInt64

variable {l l₁ l₂ : SharedLine}

theorem Becomes.refl (l : SharedLine) : Becomes (fun _ => id) 0 l l :=
  ⟨fun _ => Option.map_id_apply.symm, rfl, (UInt64.add_zero _).symm⟩

theorem Becomes.trans {change change' : Nat → Port → Port} {written written' : Nat}
    (h : Becomes change written l l₁) (h' : Becomes change' written' l₁ l₂) :
    Becomes (fun i => change' i ∘ change i) (written + written') l l₂ where
  port_eq i := by rw [h'.port_eq, h.port_eq, Option.map_map]
  length_eq := h'.length_eq.trans h.length_eq
  bytesWritten_eq := by
    rw [h'.bytesWritten_eq, h.bytesWritten_eq, UInt64.add_assoc]
    simp only [Nat.toUInt64_eq, UInt64.ofNat_add]

theorem becomes_drive (node : Nat) (on : Bool) (l : SharedLine) :
    Becomes (fun _ => id) 0 l (l.drive node on).2 where
  port_eq i := by
    simp only [drive, port, List.getElem?_modify]
    cases l.taps[i]? with
    | none => rfl
    | some t => by_cases h : node = i <;> simp [h]
  length_eq := by simp [drive]
  bytesWritten_eq := (UInt64.add_zero _).symm

theorem becomes_write (node : Nat) (bytes : List UInt8) (sound : l.shorted = false) :
    Becomes (Port.except node (Port.hear bytes)) bytes.length l (l.write node bytes).2 where
  port_eq i := by
    simp only [write, sound, Bool.false_eq_true, ↓reduceIte, port, List.getElem?_mapIdx, Port.except]
    cases l.taps[i]? with
    | none => simp
    | some t =>
      by_cases h : i = node
      · simp [h]
      · have h' : ¬ node = i := fun he => h he.symm
        by_cases ha : t.attached <;>
          simp [h, h', ha, Tap.hear, Port.hear, ByteQueue.accept_eq_filled]
  length_eq := by simp [write, sound]
  bytesWritten_eq := by simp [write, sound]

theorem becomes_release (node : Nat) (l : SharedLine) :
    Becomes (Port.only node fun port => (false, port.2)) 0 l (l.release node).2 where
  port_eq i := by
    simp only [release, port, List.getElem?_modify, Port.only]
    cases l.taps[i]? with
    | none => simp
    | some t => by_cases h : node = i <;> simp [h]
  length_eq := by simp [release]
  bytesWritten_eq := (UInt64.add_zero _).symm

theorem becomes_set_buffer (node : Nat) (q : ByteQueue) (l : SharedLine) :
    Becomes (Port.only node fun port => (port.1, port.2.map fun _ => q)) 0 l
      ((SharedLine.buffer node).set q l) where
  port_eq i := by
    simp only [buffer, port, List.getElem?_modify, Port.only]
    cases l.taps[i]? with
    | none => simp
    | some t => by_cases h : node = i <;> simp [h]
  length_eq := by simp [buffer]
  bytesWritten_eq := (UInt64.add_zero _).symm

theorem becomes_step (node : Nat) (step : ByteQueue → ByteQueue) (l : SharedLine) :
    Becomes (Port.only node fun port => (port.1, port.2.map step)) 0 l
      ((SharedLine.buffer node).set (step ((SharedLine.buffer node).get l)) l) := by
  have hset := becomes_set_buffer node (step ((SharedLine.buffer node).get l)) l
  refine ⟨fun i => ?_, hset.length_eq, hset.bytesWritten_eq⟩
  rw [hset.port_eq, buffer_eq_port]
  by_cases h : node = i
  · subst h
    rcases l.port node with _ | ⟨attached, _ | q⟩ <;> simp [Port.only]
  · simp only [Port.only, h, ↓reduceIte]

theorem becomes_connect (node : Nat) (buffer : ByteQueue) (l : SharedLine) :
    (∃ cause, l.connect node buffer = (.error cause, l)) ∨
      ∃ l', l.connect node buffer = (.ok (), l') ∧ (∃ old, l.port node = some (true, old)) ∧
        Becomes (Port.only node fun port => (port.1, some buffer)) 0 l l' := by
  cases ht : l.taps[node]? with
  | none => exact .inl ⟨.detached node, by simp [connect, ht]⟩
  | some t =>
    have hlt := (List.getElem?_eq_some_iff.mp ht).1
    cases ha : t.attached with
    | false => exact .inl ⟨.detached node, by simp [connect, ht, ha]⟩
    | true =>
      let l' := { l with taps := l.taps.set node { t with buffer := some buffer } }
      have hconnect : l.connect node buffer = (.ok (), l') := by simp [connect, ht, ha, l']
      have hold : l.port node = some (true, t.buffer) := by simp [port, ht, ha]
      refine .inr ⟨l', hconnect, ⟨_, hold⟩, fun i => ?_, by simp [l'], (UInt64.add_zero _).symm⟩
      by_cases h : node = i
      · subst h
        rw [hold]
        simp [l', port, Port.only, hlt, ha]
      · simp [l', port, Port.only, h]

end SharedLine

namespace Network

open SharedLine (Becomes)

/-- A transmission fails for want of bytes or of a line, and then only the driver's own
signals have changed. -/
theorem transmit_refused (node : Nat) {bytes : List UInt8} {net : Network τ}
    (h : bytes = [] ∨ net.line.shorted = true) :
    let sent := net.transmit node bytes
    (∃ cause, sent.1 = .error cause) ∧ Becomes (fun _ => id) 0 net.line sent.2.line ∧
      sent.2.line.transcript = net.line.transcript := by
  by_cases hne : bytes = []
  · subst hne
    exact ⟨⟨.emptyTransmission, rfl⟩, .refl _, rfl⟩
  · have hs : (net.line.drive node true).2.shorted = true := h.resolve_left hne
    have hwrite : (net.line.drive node true).2.write node bytes =
        (.error .lineFault, (net.line.drive node true).2) := by
      simp only [SharedLine.write, hs, ↓reduceIte]
    rw [transmit_eq node hne, hwrite]
    have hon := SharedLine.becomes_drive node true net.line
    have hoff := SharedLine.becomes_drive node false (net.line.drive node true).2
    exact ⟨⟨.lineFault, rfl⟩, hon.trans hoff, rfl⟩

theorem transmit_taken (node : Nat) {bytes : List UInt8} {net : Network τ} (hne : bytes ≠ [])
    (sound : net.line.shorted = false) :
    let sent := net.transmit node bytes
    sent.1 = .ok () ∧
      Becomes (Port.except node (Port.hear bytes)) bytes.length net.line sent.2.line := by
  have hs : (net.line.drive node true).2.shorted = false := sound
  have hok : ((net.line.drive node true).2.write node bytes).1 = .ok () := by
    simp only [SharedLine.write, hs, Bool.false_eq_true, ↓reduceIte]
  rw [transmit_eq node hne]
  have hon := SharedLine.becomes_drive node true net.line
  have hwrite := SharedLine.becomes_write node bytes hs
  have hoff := SharedLine.becomes_drive node false ((net.line.drive node true).2.write node bytes).2
  have hall := (hon.trans hwrite).trans hoff
  rw [Nat.zero_add, Nat.add_zero] at hall
  exact ⟨hok, hall⟩

theorem transmit_ok_iff (node : Nat) (bytes : List UInt8) (net : Network τ) :
    (net.transmit node bytes).1 = .ok () ↔ bytes ≠ [] ∧ net.line.shorted = false := by
  constructor
  · intro hok
    have hgood : ¬ (bytes = [] ∨ net.line.shorted = true) := by
      intro hrefused
      obtain ⟨⟨cause, hresult⟩, -⟩ := net.transmit_refused node hrefused
      cases hresult.symm.trans hok
    obtain ⟨hne, hsound⟩ := not_or.mp hgood
    exact ⟨hne, Bool.eq_false_iff.mpr hsound⟩
  · rintro ⟨hne, hsound⟩
    exact (net.transmit_taken node hne hsound).1

theorem start_cases (node : Nat) (buffer : ByteQueue) (net : Network τ) :
    let started := net.start node buffer
    (∃ cause, started.1 = .error cause) ∧ Becomes (fun _ => id) 0 net.line started.2.line ∨
      started.1 = .ok () ∧ (∃ old, net.line.port node = some (true, old)) ∧
        Becomes (Port.only node fun port => (port.1, some buffer)) 0 net.line started.2.line := by
  have hconnect := net.line.becomes_connect node buffer
  simp only [start, Phy.start, SharedLine.phy, driver]
  split
  · exact .inl ⟨⟨_, rfl⟩, .refl _⟩
  · rcases hconnect with ⟨cause, hconnect⟩ | ⟨line, hconnect, hold, hline⟩
    · rw [hconnect]
      exact .inl ⟨⟨_, rfl⟩, .refl _⟩
    · rw [hconnect]
      exact .inr ⟨rfl, hold, hline.trans (SharedLine.becomes_drive node false line)⟩

theorem stop_becomes (node : Nat) (net : Network τ) :
    (net.stop node).1 = .ok () ∧
      Becomes (Port.only node fun port => (false, port.2.map ByteQueue.clear)) 0 net.line
        (net.stop node).2.line := by
  have hclear := SharedLine.becomes_step node ByteQueue.clear net.line
  have hrelease := SharedLine.becomes_release node
    ((SharedLine.buffer node).set ((SharedLine.buffer node).get net.line).clear net.line)
  refine ⟨rfl, ?_⟩
  have hall := hclear.trans hrelease
  refine ⟨fun i => (hall.port_eq i).trans ?_, hall.length_eq, hall.bytesWritten_eq⟩
  by_cases h : node = i <;> simp [Port.only, h, Function.comp_def]

end Network

end TwoWire
