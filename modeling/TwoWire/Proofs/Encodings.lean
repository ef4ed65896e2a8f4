import TwoWire.Proofs.TransmitAccounting
import TwoWire.Proofs.Writing

/-! One layout of a frame, however it comes about: written over a buffer, kept in two parts, joined
or taken as it is encoded. What is taken as encoded is just what some packet is written as, and
that is all that a node ever hands to a sink. -/

namespace TwoWire

variable {ι σ : Type}

namespace Packet

theorem frame_eq_ok {p : Packet} {frame : List UInt8} :
    p.frame = .ok frame ↔
      p.payload.length ≤ payloadLimit ∧ (Arrival.ofPacket p).bytes = frame := by
  constructor
  · intro h
    by_cases fits : p.payload.length ≤ payloadLimit
    · rw [frame_of_le fits] at h
      exact ⟨fits, Except.ok.inj h⟩
    · rw [Packet.frame, header_of_lt (by omega)] at h
      cases h
  · rintro ⟨fits, rfl⟩
    exact frame_of_le fits

/-- What writing over a buffer can come to, in the order in which its conditions are checked. -/
inductive FramedInto (p : Packet) (bound : Nat) (buffer : List UInt8) :
    Except ParamFault Nat × List UInt8 → Prop where
  | tooLong (above : min bound payloadLimit < p.payload.length) :
      FramedInto p bound buffer
        (.error (.payloadTooLong p.payload.length (min bound payloadLimit)), buffer)
  | tooSmall (fits : p.payload.length ≤ min bound payloadLimit)
      (short : buffer.length < p.frameSize) :
      FramedInto p bound buffer (.error (.bufferTooSmall p.frameSize buffer.length), buffer)
  | written (fits : p.payload.length ≤ min bound payloadLimit)
      (room : p.frameSize ≤ buffer.length) :
      FramedInto p bound buffer
        (.ok p.frameSize, (Arrival.ofPacket p).bytes ++ buffer.drop p.frameSize)

theorem frameInto_framedInto (p : Packet) (bound : Nat) (buffer : List UInt8) :
    FramedInto p bound buffer (p.frameInto bound buffer) := by
  by_cases fits : p.payload.length ≤ min bound payloadLimit
  · -- The length in the header is cut down to a byte, which loses nothing within the limit.
    have hsize : (Arrival.ofPacket p).header.frameSize = p.frameSize :=
      congrArg (headerSize + ·) (toNat_toUInt8_of_le (by omega))
    rw [frameInto, header_of_le fits]
    by_cases short : buffer.length < p.frameSize
    · simp only [hsize, short, ↓reduceIte]
      exact .tooSmall fits short
    · simp only [hsize, short, ↓reduceIte]
      exact .written fits (Nat.le_of_not_lt short)
  · have above := Nat.lt_of_not_le fits
    rw [frameInto_of_lt above]
    exact .tooLong above

theorem FramedInto.spec {p : Packet} {bound : Nat} {buffer : List UInt8}
    {into : Except ParamFault Nat × List UInt8} (h : FramedInto p bound buffer into) :
    ((∃ size, into.1 = .ok size) ↔
        p.payload.length ≤ min bound payloadLimit ∧ p.frameSize ≤ buffer.length) ∧
      (∀ size, into.1 = .ok size → size = p.frameSize ∧
        p.frame = .ok (into.2.take size) ∧ into.2.drop size = buffer.drop size) ∧
      ∀ fault, into.1 = .error fault → into.2 = buffer := by
  cases h with
  | tooLong above =>
    refine ⟨⟨?_, ?_⟩, nofun, fun _ _ => rfl⟩
    · rintro ⟨_, ⟨⟩⟩
    · rintro ⟨fits, -⟩
      omega
  | tooSmall fits short =>
    refine ⟨⟨?_, ?_⟩, nofun, fun _ _ => rfl⟩
    · rintro ⟨_, ⟨⟩⟩
    · rintro ⟨-, room⟩
      omega
  | written fits room =>
    have hlength : (Arrival.ofPacket p).bytes.length = p.frameSize := Arrival.length_bytes _
    refine ⟨⟨fun _ => ⟨fits, room⟩, fun _ => ⟨_, rfl⟩⟩, ?_, nofun⟩
    rintro size ⟨⟩
    refine ⟨rfl, ?_, List.drop_left' hlength⟩
    rw [List.take_left' hlength]
    exact frame_of_le (by omega)

end Packet

namespace Outgoing

theorem ofPacket_eq_ok {p : Packet} {bound : Nat} {o : Outgoing} :
    ofPacket p bound = .ok o ↔
      p.payload.length ≤ min bound payloadLimit ∧
        o = ⟨(Arrival.ofPacket p).header, p.payload⟩ := by
  by_cases fits : p.payload.length ≤ min bound payloadLimit
  · simp [ofPacket, Packet.header_of_le fits, Except.map, fits, eq_comm]
  · simp [ofPacket, Packet.header_of_lt (Nat.lt_of_not_le fits), Except.map, fits]

theorem ofEncoded_bytes (o : Outgoing) :
    ofEncoded o.bytes =
      if payloadLimit < o.header.length.toNat then
        .error (.payloadTooLong o.header.length.toNat payloadLimit)
      else if o.size = o.header.frameSize then .ok o
      else .error (.sizeMismatch o.size o.header.frameSize) := by
  have hsize : (o.header.bytes ++ o.payload).length = o.size := o.length_bytes
  simp only [ofEncoded, bytes, Header.ofBytes?_bytes_append, Header.checkLength, hsize]
  by_cases above : payloadLimit < o.header.length.toNat
  · simp only [gt_iff_lt, above, ↓reduceIte]
  · simp only [gt_iff_lt, above, ↓reduceIte]
    rfl

/-- A frame that is taken as encoded is the header and the payload it is taken apart into, with
the length that it declares. -/
theorem ofEncoded_eq_ok {frame : List UInt8} {o : Outgoing} :
    ofEncoded frame = .ok o ↔
      (⟨o.header, o.payload⟩ : Arrival).Fits payloadLimit ∧ o.bytes = frame := by
  have hfits : (⟨o.header, o.payload⟩ : Arrival).Fits payloadLimit ↔
      o.size = o.header.frameSize ∧ o.header.length.toNat ≤ payloadLimit := by
    simp only [Arrival.Fits, size, Header.frameSize]
    omega
  rw [hfits]
  constructor
  · intro h
    have hbytes := bytes_of_ofEncoded h
    rw [← hbytes, ofEncoded_bytes] at h
    by_cases above : payloadLimit < o.header.length.toNat
    · simp [above] at h
    · by_cases hsize : o.size = o.header.frameSize
      · exact ⟨⟨hsize, Nat.le_of_not_lt above⟩, hbytes⟩
      · simp [above, hsize] at h
  · rintro ⟨⟨hsize, hle⟩, rfl⟩
    rw [ofEncoded_bytes, if_neg (Nat.not_lt.mpr hle), if_pos hsize]

theorem ofEncoded_ofPacket {p : Packet} (fits : p.payload.length ≤ payloadLimit) :
    ofEncoded (Arrival.ofPacket p).bytes =
      .ok ⟨(Arrival.ofPacket p).header, (Arrival.ofPacket p).payload⟩ :=
  ofEncoded_eq_ok.mpr ⟨Arrival.fits_ofPacket (by omega), rfl⟩

/-- The frames that are taken as encoded are the frames of packets, and no others. -/
theorem ofEncoded_isOk_iff {frame : List UInt8} :
    (∃ o, ofEncoded frame = .ok o) ↔ ∃ p : Packet, p.frame = .ok frame := by
  constructor
  · rintro ⟨o, h⟩
    obtain ⟨fits, hbytes⟩ := ofEncoded_eq_ok.mp h
    have hpacket := Arrival.ofPacket_packet fits
    refine ⟨(⟨o.header, o.payload⟩ : Arrival).packet, Packet.frame_eq_ok.mpr ⟨fits.2, ?_⟩⟩
    rw [hpacket]
    exact hbytes
  · rintro ⟨p, h⟩
    obtain ⟨fits, rfl⟩ := Packet.frame_eq_ok.mp h
    exact ⟨_, ofEncoded_ofPacket fits⟩

end Outgoing

/-- What is true of every frame that comes to a handler, and of the frame of every packet that is
handed to a sink, whatever the sink says. -/
structure Callback.Covers (node : ι) (P : Callback ι σ → Prop) : Prop where
  handled : ∀ x arrival, P (.handled node x arrival)
  sunk : ∀ p : Packet, p.payload.length ≤ payloadLimit → ∀ before result,
    P (.sunk node (Arrival.ofPacket p).bytes before result)

def Logged.All (P : Callback ι σ → Prop) (w : Logged ι σ) : Prop :=
  ∀ entry ∈ w.log, P entry

theorem Logged.All.note {P : Callback ι σ → Prop} {w : Logged ι σ} (h : w.All P)
    {entry : Callback ι σ} (hp : P entry) : (w.note entry).All P := by
  intro other hmem
  rcases List.mem_append.mp hmem with hmem | hmem
  · exact h other hmem
  · rwa [List.mem_singleton.mp hmem]

section All

variable {node : ι} {P : Callback ι σ → Prop}

theorem Node.keeps_all (covers : Callback.Covers node P) (n : Node σ) :
    n.Keeps node (Logged.All P) where
  sink _ _ p fits w hw := hw.note (covers.sunk p fits w.world _)
  handler _ _ _ _ := Reaction.changes_of_forall (fun _ _ hw => hw) _

namespace Chronicle

variable {logged : Chronicle (Logged ι σ)} {c : Chronicle σ}

theorem Logs.all_receive (covers : Callback.Covers node P) (h : Logs node logged c)
    (hall : logged.world.All P) (now : Nat) (byte : UInt8) :
    (logged.receive now byte).world.All P := by
  have hkeeps := c.node.keeps_all covers
  have hnode := hkeeps.receive (fun x arrival _ hw => hw.note (covers.handled x arrival)) now byte
    hall
  rw [← h.node] at hnode
  exact hnode

theorem Logs.all_send (covers : Callback.Covers node P) (h : Logs node logged c)
    (hall : logged.world.All P) (p : Packet) : (logged.send p).world.All P := by
  have hnode := (c.node.keeps_all covers).send p hall
  rw [← h.node] at hnode
  exact hnode

variable [DecidableEq ι]

theorem Logs.all_receiveAll (covers : Callback.Covers node P) (h : Logs node logged c)
    (hall : logged.world.All P) (now : Nat) (bytes : List UInt8) :
    (logged.receiveAll now bytes).world.All P := by
  induction bytes generalizing logged c with
  | nil => exact hall
  | cons byte rest ih => exact ih (h.receive now byte).1 (h.all_receive covers hall now byte)

theorem Logs.all_drain (covers : Callback.Covers node P) (h : Logs node logged c)
    (hall : logged.world.All P) (inbox : Place σ ByteQueue) (now looks : Nat) :
    (logged.drain (Logged.place.within inbox) now looks).world.All P := by
  induction looks generalizing logged c with
  | zero => exact hall
  | succ looks ih =>
    have hpop : (Logged.place.within inbox).run ByteQueue.pop logged.world =
        ((inbox.run ByteQueue.pop logged.world.world).1,
          { logged.world with world := (inbox.run ByteQueue.pop logged.world.world).2 }) := rfl
    simp only [Chronicle.drain, hpop]
    generalize inbox.run ByteQueue.pop logged.world.world = popped
    obtain ⟨cause | byte, world⟩ := popped
    · exact hall
    · have hpopped : Logs node { logged with world := { logged.world with world } }
          { c with world } := ⟨h.node, rfl⟩
      exact ih (hpopped.receive now byte).1 (hpopped.all_receive covers hall now byte)

theorem Logs.all_step (covers : Callback.Covers node P) (h : Logs node logged c)
    (hall : logged.world.All P) (move : Node.Move σ) :
    (logged.step (move.logged node)).world.All P := by
  cases move with
  | receive now byte => exact h.all_receive covers hall now byte
  | receiveAll now bytes =>
    rw [Node.Move.logged, step_receiveAll]
    exact h.all_receiveAll covers hall now bytes
  | drain inbox now looks =>
    rw [Node.Move.logged, step_drain]
    exact h.all_drain covers hall inbox now looks
  | send p => exact h.all_send covers hall p
  | sendTo destination opCode payload =>
    exact h.all_send covers hall ⟨logged.node.address, destination, opCode, payload⟩
  | setHandler | setSink | checkIdle | expire | reset | outside => exact hall

/-- Whatever is done with a node, only what is true of calls in general enters the log. -/
theorem Logs.all_run (covers : Callback.Covers node P) (h : Logs node logged c)
    (hall : logged.world.All P) (moves : List (Node.Move σ)) :
    (logged.run (moves.map (Node.Move.logged node))).world.All P := by
  induction moves generalizing logged c with
  | nil => exact hall
  | cons move rest ih => exact ih (h.step move).1 (h.all_step covers hall move)

end Chronicle

end All

namespace Outgoing

theorem covers_encoded : Callback.Covers () fun entry : Callback Unit σ =>
    ∀ frame before result, entry = .sunk () frame before result →
      ∃ o, ofEncoded frame = .ok o where
  handled _ _ := nofun
  sunk p fits _ _ frame _ _ h := by
    cases h
    exact ⟨_, ofEncoded_ofPacket fits⟩

/-- A packet is written over a buffer just when its payload is within the bound and the buffer has
room, and then as its frame, in front of what the buffer held; else the buffer stays as it is. In
two parts it is that frame as well. A frame is taken as encoded just when some packet is written
as it, and without loss. So an outbox takes every frame that a node hands to it, from inside a
handler or not, unless it has no room or nobody writes. -/
theorem encodings_agree :
    (∀ (p : Packet) (bound : Nat) (buffer : List UInt8),
      let into := p.frameInto bound buffer
      ((∃ size, into.1 = .ok size) ↔ p.payload.length ≤ min bound payloadLimit ∧
          headerSize + p.payload.length ≤ buffer.length) ∧
        (∀ size, into.1 = .ok size → size = headerSize + p.payload.length ∧
          p.frame = .ok (into.2.take size) ∧ into.2.drop size = buffer.drop size) ∧
        (∀ fault, into.1 = .error fault → into.2 = buffer) ∧
        ((∃ o, ofPacket p bound = .ok o) ↔ p.payload.length ≤ min bound payloadLimit) ∧
        ∀ o, ofPacket p bound = .ok o → p.frame = .ok (o.header.bytes ++ o.payload)) ∧
      (∀ frame : List UInt8,
        ((∃ o, ofEncoded frame = .ok o) ↔ ∃ q : Packet, q.frame = .ok frame) ∧
          ∀ o, ofEncoded frame = .ok o → o.header.bytes ++ o.payload = frame) ∧
      ∀ (start : Node σ) (world : σ) (moves : List (Node.Move σ)),
        let c := Chronicle.run moves ⟨start, world, []⟩
        let logged := Chronicle.run (moves.map (Node.Move.logged ()))
          ⟨start.logged (), ⟨world, []⟩, []⟩
        (logged.node = c.node.logged () ∧ logged.world.world = c.world) ∧
          ∀ frame before result, .sunk () frame before result ∈ logged.world.log →
            ∃ o, ofEncoded frame = .ok o ∧
              ∀ outbox : Outbox, outbox.transmit frame = outbox.offer o := by
  refine ⟨fun p bound buffer => ?_, fun frame => ⟨ofEncoded_isOk_iff, ?_⟩,
    fun start world moves => ?_⟩
  · obtain ⟨hsucceeds, hwritten, hkept⟩ := (p.frameInto_framedInto bound buffer).spec
    refine ⟨hsucceeds, hwritten, hkept, ⟨?_, ?_⟩, ?_⟩
    · rintro ⟨o, h⟩
      exact (ofPacket_eq_ok.mp h).1
    · exact fun fits => ⟨_, ofPacket_eq_ok.mpr ⟨fits, rfl⟩⟩
    · intro o h
      obtain ⟨fits, rfl⟩ := ofPacket_eq_ok.mp h
      exact Packet.frame_of_le (by omega)
  · exact fun o h => (ofEncoded_eq_ok.mp h).2
  · have hstart : Chronicle.Logs () ⟨start.logged (), ⟨world, []⟩, []⟩ ⟨start, world, []⟩ :=
      ⟨rfl, rfl⟩
    have hlogs := (hstart.run moves).1
    have hall := hstart.all_run covers_encoded nofun moves
    refine ⟨⟨hlogs.node, hlogs.world⟩, fun frame before result hmem => ?_⟩
    obtain ⟨o, ho⟩ := hall _ hmem frame before result rfl
    refine ⟨o, ho, fun outbox => ?_⟩
    rw [Outbox.transmit, ho]

/-- A bound wider than the format allows, a buffer with one byte to spare, and a node that answers
what it receives into a sink that is closed. -/
theorem encodings_agree_one_to_spare :
    let p : Packet := ⟨1, 2, 3, [7, 8]⟩
    let into := p.frameInto 200 [9, 9, 9, 9, 9, 9, 9]
    let start : Node Unit :=
      ⟨2, {}, .withBound 64, some fun x _ => .reply x 4 [5],
        some fun _ _ => (.error .channelClosed, ()), {}, none⟩
    let logged := Chronicle.run [.receiveAll 0 [1, 2, 3, 0]] ⟨start.logged (), ⟨(), []⟩, []⟩
    into.1 = .ok 6 ∧ p.frame = .ok (into.2.take 6) ∧ into.2.drop 6 = [9] ∧
      (∃ o, ofEncoded [1, 2, 3, 2, 7, 8] = .ok o) ∧
      (¬ ∃ q : Packet, q.frame = .ok [1, 2, 3, 2, 7, 8, 9]) ∧
      logged.world.log.length = 2 ∧ ∃ o, ofEncoded [2, 1, 4, 1, 5] = .ok o := by
  intro p into start logged
  obtain ⟨hpackets, hframes, hruns⟩ := encodings_agree (σ := Unit)
  obtain ⟨hsucceeds, hwritten, -⟩ := hpackets p 200 [9, 9, 9, 9, 9, 9, 9]
  obtain ⟨size, hsize⟩ := hsucceeds.mpr (by decide)
  obtain ⟨hsix, hframe, hrest⟩ := hwritten size hsize
  cases (hsix : size = 6)
  have hbytes : p.frame = .ok [1, 2, 3, 2, 7, 8] := rfl
  have htrailing : ¬ ∃ o, ofEncoded [1, 2, 3, 2, 7, 8, 9] = .ok o := by
    rintro ⟨o, ⟨⟩⟩
  obtain ⟨-, hhanded⟩ := hruns start () [.receiveAll 0 [1, 2, 3, 0]]
  obtain ⟨o, ho, -⟩ := hhanded [2, 1, 4, 1, 5] () (.error .channelClosed) (.tail _ (.head _))
  exact ⟨hsize, hframe, hrest, (hframes _).1.mpr ⟨p, hbytes⟩,
    fun h => htrailing ((hframes _).1.mpr h), rfl, o, ho⟩

end Outgoing

end TwoWire
