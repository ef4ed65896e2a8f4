import TwoWire.Network
import TwoWire.Proofs.Draining

/-! What one connection hears of a shared line. Only what others write while the line is
sound comes into its buffer, and only it takes anything out again. -/

namespace TwoWire

variable {τ : Type}

namespace ByteQueue

theorem pushAll_of_room {bytes : List UInt8} {q : ByteQueue}
    (h : q.length + bytes.length ≤ q.capacity) :
    (pushAll bytes q).2 = { q with bytes := q.bytes ++ bytes } := by
  induction bytes generalizing q with
  | nil => simp [pushAll]
  | cons byte rest ih =>
    simp only [length, List.length_cons] at h
    have hroom : ¬ q.capacity ≤ q.bytes.length := by omega
    have hpush : q.push byte = (.ok (), { q with bytes := q.bytes ++ [byte] }) := by
      simp [push, isFull, length, hroom]
    simp only [pushAll, hpush]
    rw [ih (by simp only [length, List.length_append, List.length_singleton]; omega)]
    simp

theorem accept_of_room {bytes : List UInt8} {q : ByteQueue}
    (h : q.length + bytes.length ≤ q.capacity) :
    q.accept bytes = { q with bytes := q.bytes ++ bytes } :=
  pushAll_of_room h

end ByteQueue

namespace SharedLine

/-- The buffer into which a connection is listening, if it is. -/
def listening (i : Nat) (l : SharedLine) : Option ByteQueue :=
  (l.taps[i]?).bind fun t => if t.attached then t.buffer else none

theorem listening_drive (i node : Nat) (on : Bool) (l : SharedLine) :
    (l.drive node on).2.listening i = l.listening i := by
  simp only [drive, listening, List.getElem?_modify]
  cases l.taps[i]? with
  | none => rfl
  | some t => by_cases h : node = i <;> simp [h]

theorem listening_write (i node : Nat) (bytes : List UInt8) (l : SharedLine) :
    (l.write node bytes).2.listening i =
      if l.shorted ∨ node = i then l.listening i else (l.listening i).map (·.accept bytes) := by
  by_cases hs : l.shorted
  · simp [write, hs]
  · simp only [write, hs, Bool.false_eq_true, ↓reduceIte, false_or, listening, List.getElem?_mapIdx]
    cases l.taps[i]? with
    | none => simp
    | some t =>
      by_cases h : i = node
      · simp [h]
      · have h' : ¬ node = i := fun he => h he.symm
        by_cases ha : t.attached <;> simp [h, h', Tap.hear, ha]

theorem listening_connect (i node : Nat) (buffer : ByteQueue) (l : SharedLine) :
    (l.connect node buffer).2.listening i = l.listening i ∨
      node = i ∧ (l.connect node buffer).2.listening i = some buffer := by
  unfold connect
  split
  · exact .inl rfl
  · rename_i t ht
    have hlt := (List.getElem?_eq_some_iff.mp ht).1
    split
    · rename_i ha
      by_cases h : node = i
      · subst h
        exact .inr ⟨rfl, by simp [listening, hlt, ha]⟩
      · exact .inl (by simp [listening, h])
    · exact .inl rfl

theorem listening_attach (i : Nat) (l : SharedLine) : l.attach.2.listening i = l.listening i := by
  simp only [attach, listening, List.getElem?_append]
  split
  · rfl
  · rename_i h
    have hnone : l.taps[i]? = none := List.getElem?_eq_none (by omega)
    rw [hnone]
    cases i - l.taps.length <;> rfl

theorem buffer_of_listening {i : Nat} {l : SharedLine} {q : ByteQueue}
    (h : l.listening i = some q) : (SharedLine.buffer i).get l = q := by
  obtain ⟨t, ht, hq⟩ := Option.bind_eq_some_iff.mp h
  split at hq
  · simp [buffer, ht, hq]
  · cases hq

theorem listening_set_buffer (i node : Nat) (q : ByteQueue) (l : SharedLine) :
    ((SharedLine.buffer node).set q l).listening i =
      if node = i then (l.listening i).map fun _ => q else l.listening i := by
  simp only [buffer, listening, List.getElem?_modify]
  cases l.taps[i]? with
  | none => simp
  | some t => by_cases h : node = i <;> by_cases ha : t.attached <;> simp [h, ha]

end SharedLine

namespace Network

theorem listening_attach (i : Nat) (net : Network τ) :
    net.attach.2.line.listening i = net.line.listening i :=
  net.line.listening_attach i

theorem listening_start (i node : Nat) (buffer : ByteQueue) (net : Network τ) :
    (net.start node buffer).2.line.listening i = net.line.listening i ∨
      node = i ∧ (net.start node buffer).2.line.listening i = some buffer := by
  have hconnect := net.line.listening_connect i node buffer
  simp only [start, Phy.start, SharedLine.phy, driver]
  split
  · exact .inl rfl
  · generalize net.line.connect node buffer = connected at hconnect
    obtain ⟨cause | _, line⟩ := connected
    · exact hconnect
    · simpa only [Phy.setTransmitting, SharedLine.drive] using
        (line.listening_drive i node false ▸ hconnect)

/-- A transmission by the driver of a connection. -/
def transmit (node : Nat) (bytes : List UInt8) (net : Network τ) :
    Except LinkError Unit × Network τ :=
  (driver node).run ((SharedLine.phy node).transmit bytes) net

theorem transmit_eq (node : Nat) {bytes : List UInt8} (hne : bytes ≠ []) (net : Network τ) :
    net.transmit node bytes =
      let written := (net.line.drive node true).2.write node bytes
      (written.1,
        { net with
          transmitting := net.transmitting.set node false
          line := (written.2.drive node false).2 }) := by
  have he : bytes.isEmpty = false := by simp [hne]
  simp only [transmit, Place.run, Phy.transmit, Phy.setTransmitting, Phy.put, SharedLine.phy, driver,
    he, Bool.false_eq_true, ↓reduceIte, SharedLine.drive]
  generalize SharedLine.write node bytes _ = written
  obtain ⟨cause | _, line⟩ := written <;> rfl

theorem sink_eq (node : Nat) {frame : List UInt8} (hne : frame ≠ []) (net : Network τ) :
    sink node frame net =
      let written := (net.line.drive node true).2.write node frame
      (written.1.mapError BusError.link,
        { net with
          transmitting := net.transmitting.set node false
          line := (written.2.drive node false).2 }) := by
  have htransmit := transmit_eq node hne net
  exact congrArg (fun transmitted => (transmitted.1.mapError BusError.link, transmitted.2)) htransmit

theorem sink_result (node : Nat) {frame : List UInt8} (hne : frame ≠ []) (net : Network τ) :
    (sink node frame net).1 = if net.line.shorted then .error (.link .lineFault) else .ok () := by
  rw [sink_eq node hne]
  by_cases h : net.line.shorted
  · simp only [SharedLine.write, SharedLine.drive, h, ↓reduceIte]
    rfl
  · simp only [SharedLine.write, SharedLine.drive, h, Bool.false_eq_true, ↓reduceIte]
    rfl

theorem listening_sink (i node : Nat) {frame : List UInt8} (hne : frame ≠ []) (net : Network τ) :
    (sink node frame net).2.line.listening i =
      if net.line.shorted ∨ node = i then net.line.listening i
      else (net.line.listening i).map (·.accept frame) := by
  rw [sink_eq node hne]
  simp only [SharedLine.listening_drive, SharedLine.listening_write]
  rfl

theorem listening_popped (i node : Nat) (net : Network τ) :
    ((buffer node).popped net).line.listening i =
      if node = i then (net.line.listening i).map (·.pop.2) else net.line.listening i := by
  have hset := SharedLine.listening_set_buffer i node ((buffer node).get net).pop.2 net.line
  refine hset.trans ?_
  by_cases h : node = i
  · subst h
    cases hl : net.line.listening node with
    | none => simp
    | some q => simp [buffer, linePlace, Place.within, SharedLine.buffer_of_listening hl]
  · simp [h]

theorem buffer_of_listening {i : Nat} {net : Network τ} {q : ByteQueue}
    (h : net.line.listening i = some q) : (buffer i).get net = q :=
  SharedLine.buffer_of_listening h

end Network

/-- A frame that another connection has put on the line while this one was listening, with
the buffer that it found there. -/
def Callback.hearing (i : Nat) : Callback Nat (Network τ) → Option (List UInt8 × ByteQueue)
  | .sunk node frame before (.ok ()) =>
    if node = i then none else (before.line.listening i).map (frame, ·)
  | _ => none

def hearings (i : Nat) (log : List (Callback Nat (Network τ))) : List (List UInt8 × ByteQueue) :=
  log.filterMap (Callback.hearing i)

/-- The frames that others have put on the line since a connection listens. -/
def heard (i : Nat) (log : List (Callback Nat (Network τ))) : List (List UInt8) :=
  (hearings i log).map (·.1)

theorem hearings_concat (i : Nat) (log : List (Callback Nat (Network τ)))
    (entry : Callback Nat (Network τ)) :
    hearings i (log ++ [entry]) = hearings i log ++ (entry.hearing i).toList := by
  rw [hearings, List.filterMap_append]
  cases h : entry.hearing i with
  | none => simp [hearings, h]
  | some x => simp [hearings, h]

theorem hearings_note (i node : Nat) (x : Exchange) (arrival : Arrival)
    (w : Logged Nat (Network τ)) :
    hearings i (w.note (.handled node x arrival)).log = hearings i w.log :=
  (hearings_concat i w.log _).trans (List.append_nil _)

/-- A frame is either not heard at all or comes into the buffer, and it is logged just so. -/
theorem hearings_sink (i node : Nat) {frame : List UInt8} (hne : frame ≠ [])
    (w : Logged Nat (Network τ)) :
    let w' := (Sink.logged node (Network.sink node) frame w).2
    (w'.world.line.listening i = w.world.line.listening i ∧
        hearings i w'.log = hearings i w.log) ∨
      node ≠ i ∧ ∃ q, w.world.line.listening i = some q ∧
        w'.world.line.listening i = some (q.accept frame) ∧
        hearings i w'.log = hearings i w.log ++ [(frame, q)] := by
  intro w'
  have hresult := Network.sink_result node hne w.world
  have hlistening : w'.world.line.listening i = _ := Network.listening_sink i node hne w.world
  have hh : hearings i w'.log = hearings i w.log ++
      (Callback.hearing i (.sunk node frame w.world (Network.sink node frame w.world).1)).toList :=
    hearings_concat i w.log _
  rw [hresult] at hh
  by_cases hs : w.world.line.shorted
  · simp only [hs, ↓reduceIte, true_or, Callback.hearing, Option.toList_none, List.append_nil]
      at hlistening hh
    exact .inl ⟨hlistening, hh⟩
  · by_cases hi : node = i
    · simp only [hs, Bool.false_eq_true, ↓reduceIte, or_true, hi, Callback.hearing, Option.toList_none,
        List.append_nil] at hlistening hh
      exact .inl ⟨hlistening, hh⟩
    · simp only [hs, Bool.false_eq_true, ↓reduceIte, or_self, hi, Callback.hearing] at hlistening hh
      cases hq : w.world.line.listening i with
      | none => exact .inl ⟨by simpa [hq] using hlistening, by simpa [hq] using hh⟩
      | some q => exact .inr ⟨hi, q, rfl, by simpa [hq] using hlistening, by simpa [hq] using hh⟩

/-- Handlers that leave the buffers on the line to their owners. They may send, look at
everything, short the line and change what lies beside it. -/
def Handler.Quiet (h : Handler (Network τ)) : Prop :=
  ∀ x arrival, (h x arrival).Changes fun update =>
    ∀ net : Network τ, (update net).line.taps = net.line.taps

end TwoWire
