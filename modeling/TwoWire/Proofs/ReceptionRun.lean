import TwoWire.Proofs.NodeHistory
import TwoWire.Proofs.CallLog
import TwoWire.Reception

/-! Receiving from a stream is feeding its bytes one after another and dropping the frame in
progress at each time-out, until the stream ends or fails and not before. How the bytes
are cut into reads makes no difference, nor does the size of the buffer they are read into. -/

namespace TwoWire

variable {σ : Type}

namespace ReadOutcome

def goesOn : ReadOutcome → Bool
  | chunk _ _ | timedOut => true
  | closed | failed _ => false

/-- Reads that bring one chunk each. -/
def ofChunks (chunks : List (Nat × List UInt8)) : List ReadOutcome :=
  chunks.map fun (now, bytes) => chunk now bytes

/-- What is done with a node for a read. -/
def moves : ReadOutcome → List (Node.Move σ)
  | chunk now bytes => bytes.map (.receive now)
  | timedOut => [.expire]
  | closed | failed _ => []

/-- The bytes of a read, each with its time. -/
def arrivals : ReadOutcome → List (Nat × UInt8)
  | chunk now bytes => bytes.map (now, ·)
  | timedOut => []
  | closed | failed _ => []

/-- A read that brings bytes brings some, and no more than a buffer has room for. -/
def Within (size : Nat) : ReadOutcome → Prop
  | chunk _ bytes => 0 < bytes.length ∧ bytes.length ≤ size
  | timedOut => True
  | closed | failed _ => False

theorem arrivals_of_stop {o : ReadOutcome} (stops : o.goesOn = false) : o.arrivals = [] := by
  cases o with
  | chunk now bytes => cases stops
  | timedOut => rfl
  | closed => rfl
  | failed cause => rfl

theorem Within.goesOn {size : Nat} {o : ReadOutcome} (h : o.Within size) : o.goesOn = true := by
  cases o with
  | chunk now bytes => rfl
  | timedOut => rfl
  | closed => exact h.elim
  | failed cause => exact h.elim

end ReadOutcome

namespace Chronicle

theorem run_append (moves moves' : List (Node.Move σ)) (c : Chronicle σ) :
    c.run (moves ++ moves') = (c.run moves).run moves' :=
  List.foldl_append

theorem run_receive (now : Nat) (bytes : List UInt8) (c : Chronicle σ) :
    c.run (bytes.map (.receive now)) = c.receiveAll now bytes := by
  induction bytes generalizing c with
  | nil => rfl
  | cons byte rest ih => exact ih (c.receive now byte)

/-- Reads after which reception goes on come to the moves that they are. -/
theorem listen_run {before : List ReadOutcome} (goesOn : ∀ o ∈ before, o.goesOn = true)
    (rest : List ReadOutcome) (c : Chronicle σ) :
    let c' := c.run (before.flatMap ReadOutcome.moves)
    c.node.listen (before ++ rest) c.world = c'.node.listen rest c'.world := by
  induction before generalizing c with
  | nil => rfl
  | cons o before ih =>
    have hbefore := ih fun o' ho' => goesOn o' (List.mem_cons_of_mem _ ho')
    have ho := goesOn o List.mem_cons_self
    simp only [List.flatMap_cons, run_append, List.cons_append]
    cases o with
    | chunk now bytes =>
      obtain ⟨hnode, hworld⟩ := c.receiveAll_eq now bytes
      have hrest := hbefore (c.receiveAll now bytes)
      rw [hnode, hworld] at hrest
      rw [ReadOutcome.moves, run_receive]
      exact hrest
    | timedOut => exact hbefore (c.step .expire)
    | closed => cases ho
    | failed cause => cases ho

end Chronicle

namespace Node

theorem deliver_lastByte (arrival : Arrival) (n : Node σ) (lastByte : Option Nat) (world : σ) :
    let delivered := n.deliver arrival world
    Node.deliver arrival { n with lastByte } world =
      (delivered.1, { delivered.2.1 with lastByte }, delivered.2.2) := by
  cases h : n.accepts arrival with
  | false => rw [deliver_of_refused h, deliver_of_refused (n := { n with lastByte }) h]
  | true =>
    rcases n.handler.eq_none_or_eq_some with hh | ⟨handler, hh⟩
    · rw [deliver_of_unhandled h hh, deliver_of_unhandled (n := { n with lastByte }) h hh]
    · rw [deliver_of_handled h hh, deliver_of_handled (n := { n with lastByte }) h hh]
      rfl

theorem receive_lastByte (now now' : Nat) (byte : UInt8) (n : Node σ) (lastByte : Option Nat)
    (world : σ) :
    ∃ lastByte', Node.receive now' byte { n with lastByte } world =
      let received := n.receive now byte world
      (received.1, { received.2.1 with lastByte := lastByte' }, received.2.2) := by
  let n' : Node σ := { n with lastByte }
  let last := (n'.noted now').lastByte
  refine ⟨last, ?_⟩
  generalize h : n.assembler.feed byte = fed
  obtain ⟨fault | _ | arrival, a⟩ := fed
  · rw [receive_of_fault h, receive_of_fault (n := n') h]
    rfl
  · rw [receive_of_more h, receive_of_more (n := n') h]
    rfl
  · have hdeliver := deliver_lastByte arrival { n.noted now with assembler := a } last world
    rw [receive_of_frame h, receive_of_frame (n := n') h]
    exact hdeliver

theorem receiveEach_lastByte {stream stream' : List (Nat × UInt8)}
    (same : stream'.map (·.2) = stream.map (·.2)) (n : Node σ) (lastByte : Option Nat) (world : σ) :
    ∃ lastByte', Node.receiveEach stream' { n with lastByte } world =
      let received := n.receiveEach stream world
      (received.1, { received.2.1 with lastByte := lastByte' }, received.2.2) := by
  induction stream generalizing stream' n lastByte world with
  | nil =>
    cases List.map_eq_nil_iff.mp same
    exact ⟨lastByte, rfl⟩
  | cons x rest ih =>
    obtain ⟨x', rest', rfl, hx, hrest⟩ := List.map_eq_cons_iff.mp same
    obtain ⟨now, byte⟩ := x
    obtain ⟨now', _⟩ := x'
    cases hx
    -- The two runs part in the record of the last byte only, which nothing here reads.
    obtain ⟨last₁, hfirst⟩ := receive_lastByte now now' byte n lastByte world
    obtain ⟨last₂, hlater⟩ := ih hrest (n.receive now byte world).2.1 last₁ (n.receive now byte world).2.2
    refine ⟨last₂, ?_⟩
    simp only [receiveEach, hfirst, hlater]

theorem listen_chunks (chunks : List (Nat × List UInt8)) (rest : List ReadOutcome) (n : Node σ)
    (world : σ) :
    n.listen (ReadOutcome.ofChunks chunks ++ rest) world =
      let received := n.receiveEach (stamped chunks) world
      received.2.1.listen rest received.2.2 := by
  induction chunks generalizing n world with
  | nil => rfl
  | cons chunk chunks ih =>
    obtain ⟨now, bytes⟩ := chunk
    rw [ReadOutcome.ofChunks] at ih ⊢
    simp only [List.map_cons, List.cons_append, listen, receiveAll_eq, ih, stamped,
      List.flatMap_cons, receiveEach_append]

theorem listen_stop {last : ReadOutcome} (stops : last.goesOn = false) :
    ∃ result : Counters → Except BusError Counters, ∀ (n : Node σ) world,
      n.listen [last] world = (result n.counters, n, world) := by
  cases last with
  | chunk now bytes => cases stops
  | timedOut => cases stops
  | closed => exact ⟨.ok, fun _ _ => rfl⟩
  | failed cause => exact ⟨fun _ => .error (.stream cause), fun _ _ => rfl⟩

/-- Where a stream that has only brought bytes leads depends on these bytes alone. -/
theorem listen_flat {chunks chunks' : List (Nat × List UInt8)}
    (same : chunks'.flatMap (·.2) = chunks.flatMap (·.2)) {last : ReadOutcome}
    (stops : last.goesOn = false) (n : Node σ) (world : σ) :
    let listened := n.listen (ReadOutcome.ofChunks chunks ++ [last]) world
    ∃ lastByte, n.listen (ReadOutcome.ofChunks chunks' ++ [last]) world =
      (listened.1, { listened.2.1 with lastByte }, listened.2.2) := by
  have hsame : (stamped chunks').map (·.2) = (stamped chunks).map (·.2) := by
    simpa [stamped, List.map_flatMap, Function.comp_def] using same
  obtain ⟨lastByte, hreceived⟩ := receiveEach_lastByte hsame n n.lastByte world
  obtain ⟨result, hstop⟩ := listen_stop (σ := σ) stops
  refine ⟨lastByte, ?_⟩
  simp only [listen_chunks, hreceived, hstop]

theorem listen_congr {outcomes outcomes' : List ReadOutcome}
    (h : ∀ (n : Node σ) world, n.listen outcomes world = n.listen outcomes' world)
    (before : List ReadOutcome) (n : Node σ) (world : σ) :
    n.listen (before ++ outcomes) world = n.listen (before ++ outcomes') world := by
  induction before generalizing n world with
  | nil => exact h n world
  | cons o before ih =>
    cases o with
    | chunk now bytes => exact ih _ _
    | timedOut => exact ih _ _
    | closed => rfl
    | failed cause => rfl

theorem expire_expire (n : Node σ) : n.expire.2.expire.2 = n.expire.2 := by
  cases h : n.assembler.isIdle with
  | true => rw [expire_of_idle h, expire_of_idle h]
  | false =>
    have hidle : n.lapsed.assembler.isIdle = true := rfl
    rw [expire_of_busy h, expire_of_idle hidle]

theorem listen_timeouts (k : Nat) (rest : List ReadOutcome) (n : Node σ) (world : σ) :
    n.listen (List.replicate (k + 1) .timedOut ++ rest) world =
      n.listen (.timedOut :: rest) world := by
  induction k generalizing n with
  | zero => rfl
  | succ k ih =>
    have hlater := ih n.expire.2
    rw [listen, expire_expire] at hlater
    rw [List.replicate_succ, List.cons_append, listen, hlater, listen]

/-- However long nothing comes, one frame at most is dropped for it. -/
theorem idleResets_run_expire (k : Nat) (c : Chronicle σ) :
    (c.run (List.replicate k .expire)).node.counters.idleResets =
      c.node.counters.idleResets + if k = 0 ∨ c.node.assembler.isIdle = true then 0 else 1 := by
  have hrun : ∀ (k : Nat) (c : Chronicle σ),
      (c.run (List.replicate (k + 1) .expire)).node = c.node.expire.2 := by
    intro k
    induction k with
    | zero => exact fun c => rfl
    | succ k ih =>
      intro c
      have hlater := ih (c.step .expire)
      exact hlater.trans (expire_expire c.node)
  cases k with
  | zero => simp [Chronicle.run]
  | succ k =>
    rw [hrun]
    cases h : c.node.assembler.isIdle with
    | true => simp [expire_of_idle h]
    | false => simp [expire_of_busy h, lapsed]

theorem erases_listen (outcomes : List ReadOutcome) (n : Node σ) (w : Logged Unit σ) :
    Erases () ((n.logged ()).listen outcomes w) (n.listen outcomes w.world) := by
  induction outcomes generalizing n w with
  | nil => exact ⟨rfl, rfl, rfl⟩
  | cons o rest ih =>
    cases o with
    | chunk now bytes =>
      let stream := bytes.map (now, ·)
      have hbytes := erases_receiveEach () stream n w
      have hrest := ih (n.receiveEach stream w.world).2.1 ((n.logged ()).receiveEach stream w).2.2
      simp only [listen, receiveAll_eq]
      rw [hbytes.node]
      rwa [hbytes.world] at hrest
    | timedOut =>
      rw [listen, listen, expire_logged]
      exact ih _ _
    | closed => exact ⟨rfl, rfl, rfl⟩
    | failed cause => exact ⟨rfl, rfl, rfl⟩

/-- The frames that come to the handler of a node while it listens. -/
def dispatched (outcomes : List ReadOutcome) (n : Node σ) (world : σ) :
    List (Exchange × Arrival) :=
  handled () ((n.logged ()).listen outcomes ⟨world, []⟩).2.2.log

end Node

namespace Inflow

variable {size : Nat}

theorem chunks_nil (size : Nat) : chunks size [] = [] := by
  rw [chunks, if_pos (.inl rfl)]

theorem chunks_cons (hsize : 0 < size) (byte : UInt8) (rest : List UInt8) :
    ∃ first later, chunks size (byte :: rest) = first :: later := by
  rw [chunks, if_neg (by simp; omega)]
  exact ⟨_, _, rfl⟩

theorem flatten_chunks (hsize : 0 < size) (bytes : List UInt8) :
    (chunks size bytes).flatten = bytes := by
  fun_induction chunks size bytes with
  | case1 bytes h =>
    rcases h with rfl | rfl
    · rfl
    · exact absurd hsize (Nat.lt_irrefl 0)
  | case2 bytes h ih => rw [List.flatten_cons, ih, List.take_append_drop]

theorem length_of_mem_chunks {bytes chunk : List UInt8} (h : chunk ∈ chunks size bytes) :
    0 < chunk.length ∧ chunk.length ≤ size := by
  fun_induction chunks size bytes with
  | case1 bytes stop => cases h
  | case2 bytes goesOn ih =>
    obtain ⟨hbytes, hsize⟩ := not_or.mp goesOn
    have hlength := List.length_pos_iff.mpr hbytes
    rcases List.mem_cons.mp h with rfl | hrest
    · rw [List.length_take]
      omega
    · exact ih hrest

theorem moves_chunks (hsize : 0 < size) (now : Nat) (bytes : List UInt8) :
    ((chunks size bytes).map (.chunk now)).flatMap ReadOutcome.moves =
      (bytes.map (.receive now) : List (Node.Move σ)) := by
  have hflat : ((chunks size bytes).map fun chunk => chunk.map (Node.Move.receive now)).flatten =
      (bytes.map (.receive now) : List (Node.Move σ)) := by
    rw [← List.map_flatten, flatten_chunks hsize]
  rwa [List.flatMap_map, List.flatMap_def]

theorem arrivals_chunks (hsize : 0 < size) (now : Nat) (bytes : List UInt8) :
    ((chunks size bytes).map (.chunk now)).flatMap ReadOutcome.arrivals = bytes.map (now, ·) := by
  have hflat : ((chunks size bytes).map fun chunk => chunk.map (Prod.mk now)).flatten =
      bytes.map (now, ·) := by
    rw [← List.map_flatten, flatten_chunks hsize]
  rwa [List.flatMap_map, List.flatMap_def]

theorem within_of_mem_timeouts (size : Nat) {timeout : Option Nat} {waited : Nat} :
    ∀ o ∈ timeouts timeout waited, o.Within size := by
  intro o ho
  cases timeout with
  | none => cases ho
  | some timeout =>
    cases List.eq_of_mem_replicate ho
    trivial

theorem within_of_mem_chunks {now : Nat} {bytes : List UInt8} :
    ∀ o ∈ (chunks size bytes).map (ReadOutcome.chunk now), o.Within size := by
  intro o ho
  obtain ⟨chunk, hchunk, rfl⟩ := List.mem_map.mp ho
  exact length_of_mem_chunks hchunk

theorem arrivals_timeouts (timeout : Option Nat) (waited : Nat) :
    (timeouts timeout waited).flatMap ReadOutcome.arrivals = [] := by
  rw [List.flatMap_eq_nil_iff]
  intro o ho
  cases timeout with
  | none => cases ho
  | some timeout =>
    cases List.eq_of_mem_replicate ho
    rfl

theorem reads_data (hsize : 0 < size) (timeout : Option Nat) (now waited : Nat) {bytes : List UInt8}
    (hbytes : bytes ≠ []) (rest : List Inflow) :
    reads size timeout now waited (.data bytes :: rest) =
      timeouts timeout waited ++
        ((chunks size bytes).map (.chunk now) ++ reads size timeout now 0 rest) := by
  obtain ⟨byte, later, rfl⟩ := List.exists_cons_of_ne_nil hbytes
  obtain ⟨first, others, hchunks⟩ := chunks_cons hsize byte later
  simp only [reads, hchunks]

theorem reads_end (size : Nat) (timeout : Option Nat) (now waited : Nat) (rest : List Inflow) :
    reads size timeout now waited (.data [] :: rest) = timeouts timeout waited ++ [.closed] := by
  simp only [reads, chunks_nil]

theorem reads_eq (hsize : 0 < size) (timeout : Option Nat) (now waited : Nat)
    (inflow : List Inflow) :
    ∃ before last, reads size timeout now waited inflow = before ++ [last] ∧
      last.goesOn = false ∧ ∀ o ∈ before, o.Within size := by
  induction inflow generalizing now waited with
  | nil => exact ⟨_, .closed, rfl, rfl, within_of_mem_timeouts size⟩
  | cons item rest ih =>
    have htimeouts : ∀ o ∈ timeouts timeout waited, o.Within size := within_of_mem_timeouts size
    cases item with
    | silence nanos => exact ih (now + nanos) (waited + nanos)
    | failure cause => exact ⟨_, .failed cause, rfl, rfl, htimeouts⟩
    | data bytes =>
      by_cases hbytes : bytes = []
      · subst hbytes
        exact ⟨_, .closed, reads_end size timeout now waited rest, rfl, htimeouts⟩
      · obtain ⟨before, last, hreads, hlast, hbefore⟩ := ih now 0
        have hchunks : ∀ o ∈ (chunks size bytes).map (ReadOutcome.chunk now), o.Within size :=
          within_of_mem_chunks
        refine ⟨timeouts timeout waited ++ (chunks size bytes).map (.chunk now) ++ before, last, ?_,
          hlast, ?_⟩
        · rw [reads_data hsize timeout now waited hbytes, hreads, List.append_assoc,
            List.append_assoc]
        · exact List.forall_mem_append.mpr
            ⟨List.forall_mem_append.mpr ⟨htimeouts, hchunks⟩, hbefore⟩

/-- The bytes of a stream up to its end, each with its time. -/
def arrivals : Nat → List Inflow → List (Nat × UInt8)
  | _, [] => []
  | now, .silence nanos :: rest => arrivals (now + nanos) rest
  | now, .data bytes :: rest =>
    if bytes = [] then [] else bytes.map (now, ·) ++ arrivals now rest
  | _, .failure _ :: _ => []

/-- Why a stream fails, if it does. -/
def failure? : List Inflow → Option StreamError
  | [] => none
  | .silence _ :: rest => failure? rest
  | .data bytes :: rest => if bytes = [] then none else failure? rest
  | .failure cause :: _ => some cause

/-- The frame in progress is dropped if there is a time-out and nothing came for as long, which
takes some time in any case. -/
def lapse (timeout : Option Nat) (waited : Nat) : List (Node.Move σ) :=
  if timeout.any (max · 1 ≤ waited) then [.expire] else []

/-- What is done with a node for what is coming, however it is read. -/
def moves (timeout : Option Nat) : Nat → Nat → List Inflow → List (Node.Move σ)
  | _, waited, [] => lapse timeout waited
  | now, waited, .silence nanos :: rest => moves timeout (now + nanos) (waited + nanos) rest
  | now, waited, .data bytes :: rest =>
    lapse timeout waited ++
      if bytes = [] then [] else bytes.map (.receive now) ++ moves timeout now 0 rest
  | _, waited, .failure _ :: _ => lapse timeout waited

theorem arrivals_reads (hsize : 0 < size) (timeout : Option Nat) (now waited : Nat)
    (inflow : List Inflow) :
    (reads size timeout now waited inflow).flatMap ReadOutcome.arrivals = arrivals now inflow := by
  induction inflow generalizing now waited with
  | nil => simp [reads, arrivals, arrivals_timeouts, ReadOutcome.arrivals]
  | cons item rest ih =>
    cases item with
    | silence nanos => exact ih (now + nanos) (waited + nanos)
    | failure cause => simp [reads, arrivals, arrivals_timeouts, ReadOutcome.arrivals]
    | data bytes =>
      by_cases hbytes : bytes = []
      · subst hbytes
        simp [reads_end, arrivals, arrivals_timeouts, ReadOutcome.arrivals]
      · rw [reads_data hsize timeout now waited hbytes, List.flatMap_append, List.flatMap_append,
          arrivals_timeouts, arrivals_chunks hsize, ih now 0, arrivals, if_neg hbytes,
          List.nil_append]

theorem expiries_eq_zero_iff (timeout waited : Nat) :
    (if timeout = 0 then min waited 1 else waited / timeout) = 0 ↔ waited < max timeout 1 := by
  by_cases hzero : timeout = 0
  · rw [if_pos hzero]
    omega
  · rw [if_neg hzero, Nat.div_eq_zero_iff]
    omega

/-- As long as nothing comes it only matters whether that is long enough. -/
theorem listen_lapse (timeout : Option Nat) (waited : Nat) (rest : List ReadOutcome)
    (c : Chronicle σ) :
    let c' := c.run (lapse timeout waited)
    c.node.listen (timeouts timeout waited ++ rest) c.world = c'.node.listen rest c'.world := by
  cases timeout with
  | none => rfl
  | some timeout =>
    have hcount := expiries_eq_zero_iff timeout waited
    rw [timeouts]
    by_cases hshort : waited < max timeout 1
    · have hlapse : lapse (some timeout) waited = ([] : List (Node.Move σ)) :=
        if_neg fun hlong => Nat.not_le.mpr hshort (of_decide_eq_true hlong)
      rw [hcount.mpr hshort, hlapse]
      rfl
    · have hlapse : lapse (some timeout) waited = [(.expire : Node.Move σ)] :=
        if_pos (decide_eq_true (Nat.le_of_not_lt hshort))
      obtain ⟨k, hk⟩ := Nat.exists_eq_add_one_of_ne_zero (mt hcount.mp hshort)
      rw [hk, Node.listen_timeouts, hlapse]
      rfl

/-- What reading into a buffer with room for any bytes at all comes to. -/
theorem listen_reads (hsize : 0 < size) (timeout : Option Nat) (now waited : Nat)
    (inflow : List Inflow) (c : Chronicle σ) :
    let c' := c.run (moves timeout now waited inflow)
    c.node.listen (reads size timeout now waited inflow) c.world =
      ((failure? inflow).elim (.ok c'.node.counters) fun cause => .error (.stream cause),
        c'.node, c'.world) := by
  induction inflow generalizing now waited c with
  | nil => exact listen_lapse timeout waited [.closed] c
  | cons item rest ih =>
    cases item with
    | silence nanos => exact ih (now + nanos) (waited + nanos) c
    | failure cause => exact listen_lapse timeout waited [.failed cause] c
    | data bytes =>
      by_cases hbytes : bytes = []
      · subst hbytes
        rw [reads_end]
        simp only [moves, failure?, if_true, List.append_nil]
        exact listen_lapse timeout waited [.closed] c
      · have hchunks : ∀ o ∈ (chunks size bytes).map (ReadOutcome.chunk now), o.goesOn = true :=
          fun o ho => (within_of_mem_chunks o ho).goesOn
        have hrest := ih now 0 ((c.run (lapse timeout waited)).run (bytes.map (.receive now)))
        simp only [moves, failure?, if_neg hbytes, Chronicle.run_append]
        rw [reads_data hsize timeout now waited hbytes, listen_lapse, Chronicle.listen_run hchunks,
          moves_chunks hsize]
        exact hrest

end Inflow

namespace Node

theorem receiveFrom_eq (size : Nat) (timeout : Option Span) (now : Nat) (inflow : List Inflow)
    (n : Node σ) (world : σ) :
    let c := Chronicle.run (Inflow.moves (n.readTimeout timeout) now 0 inflow) ⟨n, world, []⟩
    n.receiveFrom size timeout now inflow world =
      ((Inflow.failure? inflow).elim (.ok c.node.counters) fun cause => .error (.stream cause),
        c.node, c.world) := by
  have hsize : 0 < max size 1 := by omega
  exact Inflow.listen_reads hsize (n.readTimeout timeout) now 0 inflow ⟨n, world, []⟩

/-- Reception leaves node and world as receiving every byte in order and dropping the frame in
progress at every time-out does, up to the first end or failure of the stream. Without time-outs
only the bytes count, never how they are cut into reads, and time-outs in a row are as one. So
whatever room a buffer has, all bytes that come before the end are received, and the frame in
progress is dropped where nothing comes for as long as the time-out. -/
theorem reception_refines (n : Node σ) (world : σ) :
    (∀ before rest, (∀ o ∈ before, o.goesOn = true) →
      let c := Chronicle.run (before.flatMap ReadOutcome.moves) ⟨n, world, []⟩
      n.listen (before ++ .closed :: rest) world = (.ok c.node.counters, c.node, c.world) ∧
      (∀ cause, n.listen (before ++ .failed cause :: rest) world =
        (.error (.stream cause), c.node, c.world)) ∧
      ∀ k, (c.run (List.replicate k .expire)).node.counters.idleResets =
        c.node.counters.idleResets + if k = 0 ∨ c.node.assembler.isIdle = true then 0 else 1) ∧
    (∀ size timeout now inflow, ∃ before last,
      n.readsFrom size timeout now inflow = before ++ [last] ∧
        last.goesOn = false ∧ (∀ o ∈ before, o.Within (max size 1)) ∧
        before.flatMap ReadOutcome.arrivals = Inflow.arrivals now inflow) ∧
    (∀ size timeout now inflow,
      let wait := (timeout.or n.settings.idleSpan).map Span.toNanos
      let c := Chronicle.run (Inflow.moves wait now 0 inflow) ⟨n, world, []⟩
      n.receiveFrom size timeout now inflow world =
        ((Inflow.failure? inflow).elim (.ok c.node.counters) fun cause => .error (.stream cause),
          c.node, c.world)) ∧
    (∀ outcomes, Erases () ((n.logged ()).listen outcomes ⟨world, []⟩) (n.listen outcomes world)) ∧
    (∀ (chunks chunks' : List (Nat × List UInt8)) last,
      chunks'.flatMap (·.2) = chunks.flatMap (·.2) → last.goesOn = false →
      let outcomes := ReadOutcome.ofChunks chunks ++ [last]
      let outcomes' := ReadOutcome.ofChunks chunks' ++ [last]
      n.dispatched outcomes' world = n.dispatched outcomes world ∧
      ∃ lastByte, n.listen outcomes' world = ((n.listen outcomes world).1,
        { (n.listen outcomes world).2.1 with lastByte }, (n.listen outcomes world).2.2)) ∧
    (∀ size size' timeout now inflow,
      let reads := fun size => n.readsFrom size timeout now inflow
      n.dispatched (reads size') world = n.dispatched (reads size) world ∧
      n.receiveFrom size' timeout now inflow world = n.receiveFrom size timeout now inflow world) ∧
    ∀ before k rest,
      n.listen (before ++ (List.replicate (k + 1) .timedOut ++ rest)) world =
        n.listen (before ++ .timedOut :: rest) world := by
  refine ⟨fun before rest hbefore => ?_, fun size timeout now inflow => ?_,
    fun size timeout now inflow => receiveFrom_eq size timeout now inflow n world,
    fun outcomes => erases_listen outcomes n ⟨world, []⟩, fun chunks chunks' last same stops => ?_,
    fun size size' timeout now inflow => ?_, fun before k rest => ?_⟩
  · have hlisten (rest : List ReadOutcome) := Chronicle.listen_run hbefore rest ⟨n, world, []⟩
    exact ⟨hlisten (.closed :: rest), fun cause => hlisten (.failed cause :: rest),
      fun k => idleResets_run_expire k _⟩
  · have hsize : 0 < max size 1 := by omega
    obtain ⟨before, last, hreads, hlast, hbefore⟩ :=
      Inflow.reads_eq hsize (n.readTimeout timeout) now 0 inflow
    have harrivals := Inflow.arrivals_reads hsize (n.readTimeout timeout) now 0 inflow
    rw [hreads, List.flatMap_append, List.flatMap_singleton, ReadOutcome.arrivals_of_stop hlast,
      List.append_nil] at harrivals
    exact ⟨before, last, hreads, hlast, hbefore, harrivals⟩
  · obtain ⟨lastByte, hlogged⟩ := listen_flat same stops (n.logged ()) ⟨world, []⟩
    refine ⟨?_, listen_flat same stops n world⟩
    rw [dispatched, hlogged]
    rfl
  · have hlogged := (receiveFrom_eq size' timeout now inflow (n.logged ()) ⟨world, []⟩).trans
      (receiveFrom_eq size timeout now inflow (n.logged ()) ⟨world, []⟩).symm
    have hlog := congrArg (·.2.2.log) hlogged
    refine ⟨congrArg (handled ()) hlog, ?_⟩
    rw [receiveFrom_eq, receiveFrom_eq]
  · exact listen_congr (listen_timeouts k rest) before n world

def answerMost : Handler (List (List UInt8)) := fun x arrival =>
  if arrival.header.opCode = 9 then .done (.error .queueFull)
  else Reaction.reply x 8 arrival.payload

/-- A header cut short by two time-outs, a frame that the handler fails on, a length above the
bound, and a frame that comes in two reads; and a stream that is read without any room in the
buffer and without any time to wait. -/
theorem reception_refines_mixed :
    let n : Node (List (List UInt8)) :=
      { address := 2, settings := { payloadBound := 4 }, assembler := .withBound 4
        handler := some answerMost
        sink := some fun frame world => (.ok (), world ++ [frame]) }
    let before : List ReadOutcome := [.chunk 0 [1, 2, 9], .timedOut, .timedOut,
      .chunk 5 [1, 2, 9, 0, 1, 2, 9, 200, 1], .chunk 6 [2, 7, 1, 66]]
    let listened := n.listen (before ++ .closed :: [.chunk 7 [1, 2, 9, 0]]) []
    let chunks : List (Nat × List UInt8) := [(0, [1, 2, 7]), (3, [1, 66])]
    let outcomes := ReadOutcome.ofChunks chunks
    let counters : Counters :=
      { bytesReceived := 16, framesDispatched := 2, lengthErrors := 1, callbackFailures := 1
        idleResets := 1, framesSent := 1 }
    let inflow : List Inflow := [.data [1, 2, 9], .silence 5, .data [1, 2, 7, 1, 66]]
    let received := n.receiveFrom 0 (some (.ofMillis 0)) 0 inflow []
    (∀ o ∈ before, o.goesOn = true) ∧
      listened.1 = .ok counters ∧
      listened.2.2 = [[2, 1, 8, 1, 66]] ∧
      [(9, [1, 2, 7, 1, 66])].flatMap (·.2) = chunks.flatMap (·.2) ∧
      ReadOutcome.closed.goesOn = false ∧
      n.dispatched [.chunk 9 [1, 2, 7, 1, 66], .closed] [] =
        n.dispatched (outcomes ++ [.closed]) [] ∧
      received.1 = .ok { bytesReceived := 8, framesDispatched := 1, idleResets := 1, framesSent := 1 } ∧
      received.2.2 = [[2, 1, 8, 1, 66]] := by
  intro n before listened chunks outcomes counters inflow received
  have hbefore : ∀ o ∈ before, o.goesOn = true := by decide
  have same : [(9, [1, 2, 7, 1, 66])].flatMap (·.2) = chunks.flatMap (·.2) := rfl
  obtain ⟨hruns, -, hfrom, -, hflat, -⟩ := reception_refines n []
  obtain ⟨hclosed, -⟩ := hruns before [.chunk 7 [1, 2, 9, 0]] hbefore
  obtain ⟨hdispatched, -⟩ := hflat chunks [(9, [1, 2, 7, 1, 66])] .closed same rfl
  have hreceived := hfrom 0 (some (.ofMillis 0)) 0 inflow
  have hcounters : (Chronicle.run (before.flatMap ReadOutcome.moves) ⟨n, [], []⟩).node.counters =
      counters := by decide +kernel
  have hworld : (Chronicle.run (before.flatMap ReadOutcome.moves) ⟨n, [], []⟩).world =
      [[2, 1, 8, 1, 66]] := by decide +kernel
  rw [hcounters, hworld] at hclosed
  have hlistened : listened.1 = .ok counters ∧ listened.2.2 = [[2, 1, 8, 1, 66]] := by
    simp only [listened, hclosed, and_self]
  have hwait : ((some (Span.ofMillis 0)).or n.settings.idleSpan).map Span.toNanos = some 0 := rfl
  have hcounted : (Chronicle.run (Inflow.moves (some 0) 0 0 inflow) ⟨n, [], []⟩).node.counters =
      { bytesReceived := 8, framesDispatched := 1, idleResets := 1, framesSent := 1 } := by
    decide +kernel
  have hsunk : (Chronicle.run (Inflow.moves (some 0) 0 0 inflow) ⟨n, [], []⟩).world =
      [[2, 1, 8, 1, 66]] := by decide +kernel
  simp only [hwait, hcounted, hsunk] at hreceived
  have hlast : received.1 =
        .ok { bytesReceived := 8, framesDispatched := 1, idleResets := 1, framesSent := 1 } ∧
      received.2.2 = [[2, 1, 8, 1, 66]] := by
    simp only [received, hreceived, and_true]
    rfl
  exact ⟨hbefore, hlistened.1, hlistened.2, same, rfl, hdispatched, hlast.1, hlast.2⟩

end Node

end TwoWire
