import TwoWire.Proofs.Assembly
import TwoWire.Reaction

/-! What is written for a packet and what a transmission can come to. A packet within
the bound goes to the sink as one frame, and that frame is what the other side cuts
out of the stream again. -/

namespace TwoWire

theorem toNat_toUInt8_of_le {n : Nat} (h : n ≤ payloadLimit) : n.toUInt8.toNat = n := by
  simp only [payloadLimit] at h
  simp only [Nat.toUInt8_eq, UInt8.toNat_ofNat']
  omega

namespace Arrival

theorem fits_ofPacket {p : Packet} {bound : Nat} (h : p.payload.length ≤ min bound payloadLimit) :
    (ofPacket p).Fits bound :=
  ⟨toNat_toUInt8_of_le (Nat.le_trans h (Nat.min_le_right _ _)), Nat.le_trans h (Nat.min_le_left _ _)⟩

/-- A frame that came within the bound is the frame of the packet it carries. -/
theorem ofPacket_packet {a : Arrival} {bound : Nat} (h : a.Fits bound) : ofPacket a.packet = a := by
  obtain ⟨⟨source, destination, opCode, length⟩, payload⟩ := a
  obtain ⟨hlength, -⟩ := h
  simp only at hlength
  simp [ofPacket, packet, ← hlength]

theorem bytes_ne_nil (a : Arrival) : a.bytes ≠ [] := by
  simp [bytes, Header.bytes]

end Arrival

namespace Packet

theorem header_of_le {p : Packet} {bound : Nat} (h : p.payload.length ≤ min bound payloadLimit) :
    p.header bound = .ok (Arrival.ofPacket p).header := by
  simp only [header, gt_iff_lt, Nat.not_lt.mpr h, ↓reduceIte, Arrival.ofPacket]

theorem header_of_lt {p : Packet} {bound : Nat} (h : min bound payloadLimit < p.payload.length) :
    p.header bound = .error (.payloadTooLong p.payload.length (min bound payloadLimit)) := by
  simp only [header, gt_iff_lt, h, ↓reduceIte]

theorem frame_of_le {p : Packet} (h : p.payload.length ≤ payloadLimit) :
    p.frame = .ok (Arrival.ofPacket p).bytes := by
  rw [frame, header_of_le (by omega)]
  rfl

theorem frameInto_of_le {p : Packet} {bound : Nat} (h : p.payload.length ≤ min bound payloadLimit) :
    ∃ buffer, p.frameInto bound (List.replicate frameLimit 0) =
        (.ok (Arrival.ofPacket p).bytes.length, buffer) ∧
      buffer.take (Arrival.ofPacket p).bytes.length = (Arrival.ofPacket p).bytes := by
  have hlength : p.payload.length.toUInt8.toNat = p.payload.length :=
    toNat_toUInt8_of_le (by omega)
  have hsize : (Arrival.ofPacket p).header.frameSize = (Arrival.ofPacket p).bytes.length := by
    simp [Header.frameSize, Arrival.ofPacket, hlength]
  have hroom : ¬ (List.replicate frameLimit (0 : UInt8)).length <
      (Arrival.ofPacket p).bytes.length := by
    simp only [List.length_replicate, Arrival.length_bytes, Arrival.ofPacket, frameLimit]
    omega
  rw [frameInto, header_of_le h]
  simp only [hsize, hroom, ↓reduceIte]
  exact ⟨_, rfl, by rw [show (Arrival.ofPacket p).header.bytes ++ p.payload =
    (Arrival.ofPacket p).bytes from rfl, List.take_left]⟩

theorem frameInto_of_lt {p : Packet} {bound : Nat} (h : min bound payloadLimit < p.payload.length)
    (buffer : List UInt8) :
    p.frameInto bound buffer =
      (.error (.payloadTooLong p.payload.length (min bound payloadLimit)), buffer) := by
  rw [frameInto, header_of_lt h]

end Packet

variable {σ α β : Type}

/-- What a transmission can come to, in the order in which its conditions are checked.
The sink is called in the last two cases only, once and with the whole frame. -/
inductive Transmitted (sink : Option (Sink σ)) (bound : Nat) (p : Packet) (world : σ) :
    Except BusError Unit × σ → Prop where
  | tooLong (above : min bound payloadLimit < p.payload.length) :
      Transmitted sink bound p world
        (.error (.badParam (.payloadTooLong p.payload.length (min bound payloadLimit))), world)
  | noSink (fits : p.payload.length ≤ min bound payloadLimit) (missing : sink = none) :
      Transmitted sink bound p world (.error .noSink, world)
  | accepted {s : Sink σ} {world' : σ} (fits : p.payload.length ≤ min bound payloadLimit)
      (present : sink = some s) (call : s (Arrival.ofPacket p).bytes world = (.ok (), world')) :
      Transmitted sink bound p world (.ok (), world')
  | failed {s : Sink σ} {world' : σ} {cause : BusError}
      (fits : p.payload.length ≤ min bound payloadLimit) (present : sink = some s)
      (call : s (Arrival.ofPacket p).bytes world = (.error cause, world')) :
      Transmitted sink bound p world (.error (.ofCallback cause), world')

theorem transmit_transmitted (sink : Option (Sink σ)) (bound : Nat) (p : Packet) (world : σ) :
    Transmitted sink bound p world (transmit sink bound p world) := by
  by_cases h : p.payload.length ≤ min bound payloadLimit
  · obtain ⟨buffer, hinto, htake⟩ := Packet.frameInto_of_le h
    cases sink with
    | none =>
      simp only [transmit, hinto]
      exact .noSink h rfl
    | some s =>
      simp only [transmit, hinto, htake]
      split
      · exact .accepted h rfl ‹_›
      · exact .failed h rfl ‹_›
  · have hlt := Nat.lt_of_not_le h
    simp only [transmit, Packet.frameInto_of_lt hlt]
    exact .tooLong hlt

theorem transmit_of_ok {s : Sink σ} {bound : Nat} {p : Packet} {world : σ}
    (fits : p.payload.length ≤ min bound payloadLimit)
    (hok : (s (Arrival.ofPacket p).bytes world).1 = .ok ()) :
    transmit (some s) bound p world = (.ok (), (s (Arrival.ofPacket p).bytes world).2) := by
  have ht := transmit_transmitted (some s) bound p world
  generalize transmit (some s) bound p world = t at ht
  cases ht with
  | tooLong above => omega
  | noSink _ missing => simp at missing
  | accepted _ present call => cases present; rw [call]
  | failed _ present call => cases present; simp [call] at hok

namespace Reaction

/-- All changes of the state that a reaction can make have a property. -/
def Changes (P : (σ → σ) → Prop) : Reaction σ α → Prop
  | done _ => True
  | look next => ∀ world, (next world).Changes P
  | change update next => P update ∧ next.Changes P
  | send _ next => ∀ result, (next result).Changes P
  | sent next => ∀ count, (next count).Changes P

theorem changes_of_forall {P : (σ → σ) → Prop} (h : ∀ update, P update) (r : Reaction σ α) :
    r.Changes P := by
  induction r with
  | done result => trivial
  | look next ih => exact ih
  | change update next ih => exact ⟨h update, ih⟩
  | send p next ih => exact ih
  | sent next ih => exact ih

theorem Changes.mono {P Q : (σ → σ) → Prop} (hPQ : ∀ update, P update → Q update)
    {r : Reaction σ α} (h : r.Changes P) : r.Changes Q := by
  induction r with
  | done result => trivial
  | look next ih => exact fun world => ih world (h world)
  | change update next ih => exact ⟨hPQ update h.1, ih h.2⟩
  | send p next ih => exact fun result => ih result (h result)
  | sent next ih => exact fun count => ih count (h count)

/-- What every change and every transmission keeps is kept by the whole reaction. -/
theorem run_induction {sink : Option (Sink σ)} {bound : Nat} {I : σ → Prop}
    (hsend : ∀ p world, I world → I (TwoWire.transmit sink bound p world).2)
    {r : Reaction σ α} (hchanges : r.Changes fun update => ∀ world, I world → I (update world))
    (count : Nat) {world : σ} (h : I world) : I (r.run sink bound count world).2.2 := by
  induction r generalizing count world with
  | done result => exact h
  | look next ih => exact ih world (hchanges world) count h
  | change update next ih => exact ih hchanges.2 count (hchanges.1 world h)
  | send p next ih =>
    have hs := hsend p world h
    simp only [run]
    split
    · rename_i heq
      exact ih _ (hchanges _) _ (by rwa [heq] at hs)
    · rename_i heq
      exact ih _ (hchanges _) _ (by rwa [heq] at hs)
  | sent next ih => exact ih count (hchanges count) count h

theorem run_bind (sink : Option (Sink σ)) (bound : Nat) (before : Reaction σ α)
    (after : α → Reaction σ β) (count : Nat) (world : σ) :
    (before.bind after).run sink bound count world =
      let first := before.run sink bound count world
      (after first.1).run sink bound first.2.1 first.2.2 := by
  induction before generalizing count world with
  | done result => rfl
  | look next ih => exact ih world count world
  | change update next ih => exact ih count (update world)
  | send p next ih =>
    simp only [Reaction.bind, run]
    generalize TwoWire.transmit sink bound p world = t
    obtain ⟨cause | _, world'⟩ := t
    · exact ih (.error cause) count world'
    · exact ih (.ok ()) (count + 1) world'
  | sent next ih => exact ih count count world

end Reaction

end TwoWire
