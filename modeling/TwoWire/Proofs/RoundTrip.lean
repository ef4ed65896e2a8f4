import TwoWire.Proofs.CallLog

/-! Frames and packets are two views of the same stream. What is written for packets is
received as these packets, however it is cut on the way, and a node that sends on all it
receives hands back the stream itself, apart from headers it refuses. -/

namespace TwoWire

variable {ι σ : Type}

theorem mapM_frame {packets : List Packet} (h : ∀ p ∈ packets, p.payload.length ≤ payloadLimit) :
    packets.mapM Packet.frame = .ok (packets.map fun p => (Arrival.ofPacket p).bytes) := by
  induction packets with
  | nil => rfl
  | cons p rest ih =>
    rw [List.mapM_cons, Packet.frame_of_le (h p List.mem_cons_self),
      ih fun q hq => h q (List.mem_cons_of_mem _ hq)]
    rfl

theorem cut_frames {bound : Nat} {packets : List Packet}
    (h : ∀ p ∈ packets, p.payload.length ≤ min bound payloadLimit) :
    Piece.cut bound (packets.map fun p => (Arrival.ofPacket p).bytes).flatten =
      (packets.map fun p => .frame (Arrival.ofPacket p), []) := by
  have hwhole : ∀ piece ∈ packets.map fun p => Piece.frame (Arrival.ofPacket p),
      piece.Whole bound := by
    intro piece hp
    obtain ⟨p, hmem, rfl⟩ := List.mem_map.mp hp
    exact Arrival.fits_ofPacket (h p hmem)
  have hcut := Piece.cut_flatMap hwhole []
  rw [List.flatMap_map, List.append_nil, Piece.cut_nil, List.append_nil] at hcut
  rw [← List.flatMap_def]
  exact hcut

theorem Assembler.Sound.feedAll_frames {a : Assembler} (h : a.Sound) (idle : a.phase = .source)
    {packets : List Packet} (short : ∀ p ∈ packets, p.payload.length ≤ a.bound) :
    let fed := a.feedAll (packets.map fun p => (Arrival.ofPacket p).bytes).flatten
    completed fed.1 = packets.map Arrival.ofPacket ∧ fed.2.phase = .source := by
  have hle := h.bound_le
  have hlimit : ∀ p ∈ packets, p.payload.length ≤ min a.bound payloadLimit := by
    intro p hp
    have := short p hp
    omega
  have hcut := cut_frames hlimit
  obtain ⟨hresults, hpending, hsound, -⟩ := h.feedAll_of_idle idle
    (packets.map fun p => (Arrival.ofPacket p).bytes).flatten
  rw [hcut] at hresults hpending
  have hprogress := hsound.progress_pending
  rw [hpending] at hprogress
  refine ⟨?_, (congrArg Prod.fst hprogress).symm⟩
  rw [hresults, completed_streamResults, List.filterMap_map]
  simp [Function.comp_def, Piece.arrival?]

def forwarding : Handler σ := fun _ arrival =>
  Reaction.transmit arrival.packet

namespace Node

variable {address : UInt8} {settings : Settings} {n : Node σ}

theorem Reachable.assembler_bound (h : n.Reachable address settings) :
    n.assembler.Sound ∧ n.assembler.bound = settings.payloadBound.toNat := by
  obtain ⟨-, -, hcheck, hassembler⟩ := h.setup
  have := Settings.bound_of_check hcheck
  refine ⟨hassembler.sound, ?_⟩
  rw [hassembler.bound_eq]
  omega

theorem handles_of_everything (all : n.settings.filter = .everything) {handler : Handler σ}
    (present : n.handler = some handler) (arrival : Arrival) : n.handles arrival = true := by
  simp [handles, accepts, all, present, Filter.accepts]

/-- A stream that starts between two frames comes to what its pieces come to, if the
handler does not fail. -/
theorem receiveEach_pieces [DecidableEq ι] (hsound : n.assembler.Sound)
    (idle : n.assembler.phase = .source) (willing : n.Willing n.assembler.bound) (node : ι)
    (stream : List (Nat × UInt8)) (world : σ) :
    let cut := Piece.cut n.assembler.bound (stream.map (·.2))
    let received := n.receiveEach stream world
    received.1 = (Piece.streamResults n.assembler.bound cut).map resultOf ∧
      received.2.1.assembler.pending = cut.2 ∧ received.2.1.assembler.Sound ∧
      received.2.1.counters.lengthErrors =
        n.counters.lengthErrors + (cut.1.countP (·.arrival?.isNone)).toUInt64 ∧
      handled node ((n.logged node).receiveEach stream ⟨world, []⟩).2.2.log =
        ((cut.1.filterMap Piece.arrival?).filter n.handles).map n.call := by
  obtain ⟨hresults, hpending, hsound', -⟩ := hsound.feedAll_of_idle idle (stream.map (·.2))
  obtain ⟨counters, lastByte, hnode⟩ := receiveEach_node stream n world
  have hrefused := lengthErrors_receiveEach stream n world
  have hhandled := handled_receiveEach node stream n ⟨world, []⟩
  rw [hresults, Assembler.refusals_streamResults] at hrefused
  rw [hresults, Assembler.completed_streamResults] at hhandled
  refine ⟨?_, ?_, ?_, hrefused, hhandled⟩
  · rw [receiveEach_results hsound willing, hresults]
  · rw [hnode]
    exact hpending
  · rw [hnode]
    exact hsound'

/-- What is written for packets is received as these packets, one after another and each
once, into whatever chunks the stream is cut on the way. -/
theorem receiveChunks_frames (h : n.Reachable address settings) (idle : n.assembler.phase = .source)
    (all : settings.filter = .everything) {handler : Handler σ} (present : n.handler = some handler)
    (willing : ∀ arrival world, (n.react handler arrival world).1 = .ok ()) {packets : List Packet}
    (short : ∀ p ∈ packets, p.payload.length ≤ settings.payloadBound.toNat) :
    ∃ frames, packets.mapM Packet.frame = .ok frames ∧
      ∀ chunks : List (Nat × List UInt8), chunks.flatMap (·.2) = frames.flatten → ∀ world,
        let received := n.receiveChunks chunks world
        let logged := (n.logged ()).receiveChunks chunks ⟨world, []⟩
        Erases () logged received ∧ received.1 = List.replicate chunks.length (.ok ()) ∧
          (handled () logged.2.2.log).map (fun (x, arrival) => (x, arrival.packet)) =
            packets.map (fun p => (⟨address, p.source⟩, p)) ∧
          received.2.1.assembler.phase = .source ∧
          received.2.1.counters.lengthErrors = n.counters.lengthErrors := by
  obtain ⟨haddress, hsettings, hcheck, -⟩ := h.setup
  obtain ⟨hsound, hbound⟩ := h.assembler_bound
  have hlimit := (Settings.bound_of_check hcheck).2
  have hshort : ∀ p ∈ packets, p.payload.length ≤ min n.assembler.bound payloadLimit := by
    intro p hp
    have := short p hp
    omega
  refine ⟨_, mapM_frame fun p hp => by have := short p hp; omega, ?_⟩
  intro chunks hchunks world
  have hbytes : (stamped chunks).map (·.2) =
      (packets.map fun p => (Arrival.ofPacket p).bytes).flatten := by
    rw [← hchunks, stamped, List.map_flatMap]
    simp [Function.comp_def]
  have hwilling : n.Willing n.assembler.bound := by
    intro handler' hh arrival _ world'
    cases present.symm.trans hh
    exact willing arrival world'
  have hstream := receiveEach_pieces hsound idle hwilling () (stamped chunks) world
  simp only [hbytes, cut_frames hshort] at hstream
  obtain ⟨hresults, hpending, hsound', hrefused, hhandled⟩ := hstream
  refine ⟨erases_receiveChunks () chunks n ⟨world, []⟩, receiveChunks_ok ?_, ?_, ?_, ?_⟩
  · intro result hr
    rw [hresults] at hr
    obtain ⟨brought, hb, rfl⟩ := List.mem_map.mp hr
    rcases Piece.mem_streamResults hb with ⟨arrival, rfl⟩ | ⟨header, hmem, -⟩
    · rfl
    · obtain ⟨p, -, he⟩ := List.mem_map.mp hmem
      cases he
  · have hhandles := handles_of_everything (n := n) (hsettings ▸ all) present
    rw [receiveChunks_eq, hhandled, List.filter_eq_self.mpr fun arrival _ => hhandles arrival,
      List.filterMap_map, ← haddress]
    simp [Function.comp_def, Piece.arrival?, call, Arrival.ofPacket, Arrival.packet]
  · rw [receiveChunks_eq]
    have hprogress := hsound'.progress_pending
    rw [hpending] at hprogress
    exact (congrArg Prod.fst hprogress).symm
  · rw [receiveChunks_eq, hrefused, List.countP_map]
    simp [Function.comp_def, Piece.arrival?]

/-- Two packets, one of them empty, in four chunks, one of them empty, to a node that
keeps what it receives. -/
theorem receiveChunks_frames_pair :
    let keep : Handler (List Packet) := fun _ arrival =>
      .change (· ++ [arrival.packet]) (.done (.ok ()))
    let n : Node (List Packet) :=
      ⟨2, { payloadBound := 2 }, .withBound 2, some keep, none, {}, none⟩
    let packets : List Packet := [⟨1, 2, 3, []⟩, ⟨1, 9, 4, [7, 8]⟩]
    let chunks := [(0, [1, 2]), (0, []), (5, [3, 0, 1, 9, 4, 2, 7]), (9, [8])]
    let received := n.receiveChunks chunks []
    n.Reachable 2 { payloadBound := 2 } ∧ (∀ p ∈ packets, p.payload.length ≤ 2) ∧
      chunks.flatMap (·.2) = (packets.map fun p => (Arrival.ofPacket p).bytes).flatten ∧
      received.1 = List.replicate 4 (.ok ()) ∧ received.2.2 = packets ∧
      received.2.1.assembler.phase = .source ∧ received.2.1.counters.lengthErrors = 0 := by
  intro keep n packets chunks received
  have hcreate : create 2 { payloadBound := 2 } = .ok { n with handler := none } := rfl
  have hr : n.Reachable 2 { payloadBound := 2 } := .withHandler (some keep) (.created hcreate)
  have short : ∀ p ∈ packets, p.payload.length ≤ 2 := by decide
  have present : n.handler = some keep := rfl
  obtain ⟨frames, hframes, hh⟩ := receiveChunks_frames hr rfl rfl present (fun _ _ => rfl) short
  have hf : frames = packets.map fun p => (Arrival.ofPacket p).bytes := by
    rw [mapM_frame fun p hp => Nat.le_trans (short p hp) (by decide)] at hframes
    exact (Except.ok.inj hframes).symm
  have hchunks : chunks.flatMap (·.2) = frames.flatten := by
    rw [hf]
    decide
  obtain ⟨-, hresults, -, hphase, hcount⟩ := hh chunks hchunks []
  exact ⟨hr, short, hf ▸ hchunks, hresults, by decide, hphase, hcount⟩

structure Forwards (sink : Sink σ) (n : Node σ) : Prop where
  sound : n.assembler.Sound
  bound_eq : n.assembler.bound = n.settings.payloadBound.toNat
  all : n.settings.filter = .everything
  handler_eq : n.handler = some forwarding
  sink_eq : n.sink = some sink
  takes : ∀ frame world, (sink frame world).1 = .ok ()

theorem react_forwarding {sink : Sink σ} (hs : n.sink = some sink) {arrival : Arrival}
    (fits : arrival.Fits (min n.settings.payloadBound.toNat payloadLimit)) (world : σ)
    (hok : (sink arrival.bytes world).1 = .ok ()) :
    n.react forwarding arrival world = (.ok (), 1, (sink arrival.bytes world).2) := by
  have hp := Arrival.ofPacket_packet fits
  have ht : transmit (some sink) n.settings.payloadBound.toNat arrival.packet world = _ :=
    transmit_of_ok fits.2 (by rwa [hp])
  rw [hp] at ht
  simp only [react, forwarding, Reaction.transmit, Reaction.run, hs, ht]

namespace Forwards

variable {sink : Sink σ}

theorem fits (h : n.Forwards sink) {arrival : Arrival} (hf : arrival.Fits n.assembler.bound) :
    arrival.Fits (min n.settings.payloadBound.toNat payloadLimit) := by
  have := h.sound.bound_le
  have := h.bound_eq
  exact ⟨hf.1, by have := hf.2; omega⟩

theorem willing (h : n.Forwards sink) : n.Willing n.assembler.bound := by
  intro handler hh arrival hf world
  cases h.handler_eq.symm.trans hh
  rw [react_forwarding h.sink_eq (h.fits hf) world (h.takes _ _)]

theorem receive (h : n.Forwards sink) (now : Nat) (byte : UInt8) (world : σ) :
    (n.receive now byte world).2.1.Forwards sink := by
  obtain ⟨counters, lastByte, hnode⟩ := receive_node now byte n world
  have hfed := h.sound.feed byte
  have hbound : (n.assembler.feed byte).2.bound = n.assembler.bound := hfed.bound_eq
  rw [hnode]
  exact ⟨hfed.sound, hbound.trans h.bound_eq, h.all, h.handler_eq, h.sink_eq, h.takes⟩

theorem sunk_receive [DecidableEq ι] (h : n.Forwards sink) (node : ι) (now : Nat) (byte : UInt8)
    (w : Logged ι σ) :
    sunk node ((n.logged node).receive now byte w).2.2.log =
      sunk node w.log ++ (Assembler.completed [(n.assembler.feed byte).1]).map fun arrival =>
        (arrival.bytes, .ok ()) := by
  have hfed := h.sound.feed byte
  generalize hf : n.assembler.feed byte = fed at hfed
  cases hfed with
  | more =>
    rw [receive_of_more (n := n.logged node) hf]
    simp [Assembler.completed]
  | refused =>
    rw [receive_of_fault (n := n.logged node) hf]
    simp [Assembler.completed]
  | @frame a arrival _ _ _ fits =>
    have haccepts : n.accepts arrival = true := by simp [accepts, h.all, Filter.accepts]
    have hl : (n.logged node).handler = some (Handler.logged node forwarding) := by
      simp [h.handler_eq]
    have hs : (n.logged node).sink = some (Sink.logged node sink) := by simp [h.sink_eq]
    have hreact := react_forwarding (n := n.logged node) hs (h.fits fits)
      (w.note (.handled node ⟨n.address, arrival.header.source⟩ arrival))
      (h.takes arrival.bytes w.world)
    rw [receive_of_frame (n := n.logged node) hf,
      deliver_of_handled (n := { (n.logged node).noted now with assembler := a }) haccepts hl]
    change sunk node ((n.logged node).react forwarding arrival
      (w.note (.handled node ⟨n.address, arrival.header.source⟩ arrival))).2.2.log = _
    rw [hreact]
    simp [Sink.logged, Logged.note, sunk, Assembler.completed, h.takes]

theorem sunk_receiveEach [DecidableEq ι] (h : n.Forwards sink) (node : ι)
    (stream : List (Nat × UInt8)) (w : Logged ι σ) :
    sunk node ((n.logged node).receiveEach stream w).2.2.log =
      sunk node w.log ++
        (Assembler.completed (n.assembler.feedAll (stream.map (·.2))).1).map fun arrival =>
          (arrival.bytes, .ok ()) := by
  induction stream generalizing n w with
  | nil => simp [receiveEach, Assembler.feedAll, Assembler.completed]
  | cons x rest ih =>
    obtain ⟨now, byte⟩ := x
    obtain ⟨counters, lastByte, hnode⟩ := receive_node now byte n w.world
    have hrest := ih (h.receive now byte w.world) ((n.logged node).receive now byte w).2.2
    have hcons := Assembler.completed_cons (n.assembler.feed byte).1
      ((n.assembler.feed byte).2.feedAll (rest.map (·.2))).1
    simp only [receiveEach, List.map_cons, Assembler.feedAll, hcons]
    rw [(erases_receive node now byte n w).node, hrest, h.sunk_receive, hnode, List.map_append,
      List.append_assoc]

end Forwards

/-- A node that sends on whatever it receives writes the stream again that it reads. What
its sink is handed is the stream without the headers of refused lengths, each of which is
one failure, and without what has come of a frame that is not complete. -/
theorem receiveEach_forwarding (h : n.Reachable address settings)
    (idle : n.assembler.phase = .source) (all : settings.filter = .everything)
    (hhandler : n.handler = some forwarding) {sink : Sink σ} (hsink : n.sink = some sink)
    (takes : ∀ frame world, (sink frame world).1 = .ok ()) (stream : List (Nat × UInt8)) (world : σ) :
    let bound := settings.payloadBound.toNat
    let received := n.receiveEach stream world
    let logged := (n.logged ()).receiveEach stream ⟨world, []⟩
    Erases () logged received ∧ ∃ pieces : List Piece, (∀ piece ∈ pieces, piece.Whole bound) ∧
      stream.map (·.2) = pieces.flatMap Piece.bytes ++ received.2.1.assembler.pending ∧
      sunk () logged.2.2.log =
        (pieces.filterMap Piece.arrival?).map (fun arrival => (arrival.bytes, .ok ())) ∧
      received.1 =
        (Piece.streamResults bound (pieces, received.2.1.assembler.pending)).map resultOf ∧
      received.2.1.counters.lengthErrors =
        n.counters.lengthErrors + (pieces.countP (·.arrival?.isNone)).toUInt64 := by
  obtain ⟨-, hsettings, -, -⟩ := h.setup
  obtain ⟨hsound, hbound⟩ := h.assembler_bound
  have hforwards : n.Forwards sink :=
    ⟨hsound, hsettings ▸ hbound, hsettings ▸ all, hhandler, hsink, takes⟩
  obtain ⟨hresults, hpending, -, hrefused, -⟩ :=
    receiveEach_pieces hsound idle hforwards.willing () stream world
  have hsunk := hforwards.sunk_receiveEach () stream ⟨world, []⟩
  rw [(hsound.feedAll_of_idle idle _).1, Assembler.completed_streamResults] at hsunk
  rw [hbound] at hresults hpending hsunk hrefused
  refine ⟨erases_receiveEach () stream n ⟨world, []⟩,
    (Piece.cut settings.payloadBound.toNat (stream.map (·.2))).1,
    fun piece => Piece.whole_of_mem_cut, ?_, ?_, ?_, ?_⟩
  · rw [hpending, Piece.flatMap_bytes_cut]
  · exact hsunk
  · rw [hresults, hpending]
  · exact hrefused

/-- A frame, a refused header, an empty frame and three bytes of a header are read by a
node that writes them to a list. -/
theorem receiveEach_forwarding_list :
    let keep : Sink (List (List UInt8)) := fun frame world => (.ok (), world ++ [frame])
    let n : Node (List (List UInt8)) :=
      ⟨2, { payloadBound := 2 }, .withBound 2, some forwarding, some keep, {}, none⟩
    let stream : List UInt8 := [1, 2, 3, 1, 7, 1, 2, 3, 9, 1, 9, 4, 0, 6, 6, 6]
    let received := n.receiveEach (stream.map (0, ·)) []
    n.Reachable 2 { payloadBound := 2 } ∧ received.2.2 = [[1, 2, 3, 1, 7], [1, 9, 4, 0]] ∧
      ∃ pieces : List Piece, (∀ piece ∈ pieces, piece.Whole 2) ∧
        stream = pieces.flatMap Piece.bytes ++ received.2.1.assembler.pending ∧
        (pieces.filterMap Piece.arrival?).map Arrival.bytes = received.2.2 := by
  intro keep n stream received
  have hcreate : create 2 { payloadBound := 2 } =
    .ok ({ n with handler := none, sink := none } : Node (List (List UInt8))) := rfl
  have hr : n.Reachable 2 { payloadBound := 2 } :=
    .withSink (some keep) (.withHandler (some forwarding) (.created hcreate))
  have present : n.sink = some keep := rfl
  obtain ⟨-, pieces, hwhole, hstream, hsunk, -⟩ := receiveEach_forwarding hr rfl rfl rfl
    present (fun _ _ => rfl) (stream.map (0, ·)) []
  refine ⟨hr, by decide, pieces, hwhole, ?_, ?_⟩
  · rw [← hstream]
    decide
  · have hlog : sunk () ((n.logged ()).receiveEach (stream.map (0, ·)) ⟨[], []⟩).2.2.log =
      received.2.2.map (·, .ok ()) := rfl
    have := congrArg (List.map Prod.fst) (hsunk.symm.trans hlog)
    simpa [Function.comp_def] using this

end Node

end TwoWire
