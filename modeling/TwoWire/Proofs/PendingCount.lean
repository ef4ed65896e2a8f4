import TwoWire.Proofs.WriteOrder

/-! How many frames are on their way. A frame is counted by its sender before the channel
has it and no longer once its batch is flushed, so whatever the order of calls and steps,
what is counted is what waits for room and what was accepted and is not flushed. -/

namespace TwoWire

variable {σ : Type}

/-- The frames of a batch that the task has done with. -/
def TaskPhase.flushed : TaskPhase → TaskPhase → List Outgoing
  | flushing batch, waiting => batch
  | _, _ => []

instance (phase : TaskPhase) (cause : BusError) : Decidable (phase = .ended (.error cause)) :=
  match phase with
  | .ended (.error other) => decidable_of_iff (other = cause) (by simp)
  | .waiting | .gathering _ | .writing _ _ | .flushing _ | .ended (.ok ()) => isFalse nofun

theorem TaskPhase.flushed_self (phase : TaskPhase) : phase.flushed phase = [] := by
  cases phase <;> rfl

theorem TaskPhase.flushed_gathering (phase : TaskPhase) (batch : List Outgoing) :
    phase.flushed (.gathering batch) = [] := by
  cases phase <;> rfl

theorem TaskPhase.flushed_ended (phase : TaskPhase) (result : Except BusError Unit) :
    phase.flushed (.ended result) = [] := by
  cases phase <;> rfl

theorem TaskPhase.exists_written (phase : TaskPhase) :
    ∃ written, phase.batch.flatMap Outgoing.bytes = written ++ phase.unwritten := by
  cases phase with
  | waiting => exact ⟨[], rfl⟩
  | gathering batch => exact ⟨[], rfl⟩
  | writing batch written => exact ⟨_, (List.take_append_drop written _).symm⟩
  | flushing batch => exact ⟨_, (List.append_nil _).symm⟩
  | ended result => exact ⟨[], rfl⟩

/-- A step of the task takes nothing back from its stream. -/
theorem Outbox.Worked.taken_prefix {o o' : Outbox} {w w' : Recorded σ} (h : o.Worked w o' w') :
    w.taken <+: w'.taken := by
  cases h with
  | first | more | gathered | written | finished => exact List.prefix_refl _
  | wrote | flushed | delayed | failed =>
    rw [Recorded.taken_note]
    exact List.prefix_append _ _

namespace Outbox

/-- What a step of the task does with the frames, whatever its stream says: it takes one
more, goes on with those it has, is done with them, or leaves all there are behind. -/
inductive Stepped (o : Outbox) : Outbox → Prop where
  | took {frame : Outgoing} {rest : List Outgoing} (queued : o.channel.queued = frame :: rest) :
      Stepped o { o with channel.queued := rest, task := .gathering (o.task.batch ++ [frame]) }
  | went {task : TaskPhase} (same : task.batch = o.task.batch)
      (going : o.task.flushed task = [] ∧ ∀ result, task ≠ .ended result) :
      Stepped o { o with task }
  | flushed {batch : List Outgoing} (phase : o.task = .flushing batch) :
      Stepped o { o with task := .waiting, pending := o.pending - batch.length }
  | ended {result : Except BusError Unit}
      (left_over : result = .ok () → o.task.batch = [] ∧ o.channel.queued = []) :
      Stepped o (o.finish result)

theorem Stepped.failed (o : Outbox) (cause : BusError) : o.Stepped (o.finish (.error cause)) :=
  .ended nofun

section

variable {stream : ByteStream σ} {o o' : Outbox} {w w' : Recorded σ}

theorem Worked.stepped (h : o.Worked w o' w') : o.Stepped o' := by
  cases h with
  | first phase queued =>
    have htook := Stepped.took queued
    rwa [phase] at htook
  | more phase room queued =>
    have htook := Stepped.took queued
    rwa [phase] at htook
  | gathered phase | wrote phase | written phase =>
    exact .went (by rw [phase]; rfl) ⟨by rw [phase]; rfl, by simp⟩
  | flushed phase => exact .flushed phase
  | delayed phase =>
    have hgoing : ∀ result, o.task ≠ .ended result := by
      rcases phase with ⟨batch, written, phase⟩ | ⟨batch, phase⟩ <;> simp [phase]
    exact .went rfl ⟨o.task.flushed_self, hgoing⟩
  | failed => exact .failed o _
  | finished phase queued => exact .ended fun _ => ⟨by rw [phase]; rfl, queued⟩

/-- A write is a step like this also if the stream claims more than it was offered. -/
theorem stepped_of_writing {batch : List Outgoing} {written : Nat}
    (hphase : o.task = .writing batch written)
    (h : o.step stream.recorded w = some (o', w')) : o.Stepped o' := by
  have hwent {task : TaskPhase} (hbatch : task.batch = batch)
      (hgoing : ∀ result, task ≠ .ended result) : o.Stepped { o with task } :=
    .went (by rw [hbatch, hphase]; rfl) ⟨by rw [hphase]; rfl, hgoing⟩
  simp only [step, hphase] at h
  split at h
  · generalize stream.recorded.write (Outgoing.slicesFrom written batch) w = answered at h
    obtain ⟨n | _ | cause, after⟩ := answered
    · simp only at h
      split at h
      · cases h
        exact .failed o _
      · cases h
        exact hwent rfl (by simp)
    · cases h
      exact hwent (by rw [hphase]; rfl) (by simp [hphase])
    · cases h
      exact .failed o _
  · cases h
    exact hwent rfl (by simp)

theorem stepped_of_step (h : o.step stream.recorded w = some (o', w')) :
    (∀ result, o.task ≠ .ended result) ∧ o.Stepped o' := by
  cases hphase : o.task with
  | waiting => exact ⟨nofun, (worked_of_waiting hphase h).stepped⟩
  | gathering batch => exact ⟨nofun, (worked_of_gathering hphase h).stepped⟩
  | writing batch written => exact ⟨nofun, stepped_of_writing hphase h⟩
  | flushing batch => exact ⟨nofun, (worked_of_flushing hphase h).stepped⟩
  | ended result => simp [step, hphase] at h

end

theorem offer_refused {o : Outbox} {frame : Outgoing} {cause : BusError}
    (h : (o.offer frame).1 = .error cause) :
    (cause = .queueFull ∨ cause = .channelClosed) ∧ (o.offer frame).2 = o := by
  rcases o.channel.offer_cases frame with ⟨-, hoffer⟩ | ⟨fault, hoffer⟩
  · simp [offer, hoffer] at h
  · simp only [offer, hoffer, Except.error.injEq] at h ⊢
    refine ⟨?_, rfl⟩
    cases fault with
    | full => exact .inl h.symm
    | closed => exact .inr h.symm

theorem transmit_refused {o : Outbox} {bytes : List UInt8} {cause : BusError}
    (h : (o.transmit bytes).1 = .error cause) :
    ((∃ fault, cause = .badParam fault) ∨ cause = .queueFull ∨ cause = .channelClosed) ∧
      (o.transmit bytes).2 = o := by
  cases hencoded : Outgoing.ofEncoded bytes with
  | error fault =>
    simp only [transmit, hencoded, Except.error.injEq] at h ⊢
    exact ⟨.inl ⟨fault, h.symm⟩, trivial⟩
  | ok frame =>
    simp only [transmit, hencoded] at h ⊢
    obtain ⟨hcause, hsame⟩ := offer_refused h
    exact ⟨.inr hcause, hsame⟩

/-- A send is refused only when nobody takes frames, and takes back what it counted. -/
theorem finishSend_refused {o o' : Outbox} {i : Nat} {cause : BusError}
    (counted : o.waiting.length ≤ o.pending) (h : o.finishSend i = some (.error cause, o')) :
    cause = .channelClosed ∧ o'.pending + 1 = o.pending ∧
      o'.waiting.length + 1 = o.waiting.length := by
  cases hwaits : o.waiting[i]? with
  | none => simp [finishSend, hwaits] at h
  | some frame =>
    have hi : i < o.waiting.length := (List.getElem?_eq_some_iff.mp hwaits).1
    have hlength := List.length_eraseIdx_of_lt hi
    rcases o.channel.offer_cases frame with ⟨-, hoffer⟩ | ⟨fault, hoffer⟩
    · simp [finishSend, hwaits, hoffer] at h
    · simp only [finishSend, hwaits, hoffer] at h
      cases fault with
      | full => cases h
      | closed =>
        cases h
        refine ⟨rfl, ?_, ?_⟩
        · simp only
          omega
        · simp only [hlength]
          omega

/-- Sends that their callers give up with a move. -/
def abandonedBy (o : Outbox) : Move → Nat
  | .abandonSend i => if i < o.waiting.length then 1 else 0
  | _ => 0

end Outbox

namespace Dispatch

/-- What is counted and is neither waiting nor accepted nor given up stays as it is. -/
def Balanced (abandoned : Nat) (d d' : Dispatch σ) : Prop :=
  d'.outbox.pending + d.outbox.waiting.length + d.accepted.length =
    d.outbox.pending + d'.outbox.waiting.length + d'.accepted.length + abandoned

section

variable {d : Dispatch σ}

theorem balanced_refl (d : Dispatch σ) : d.Balanced 0 d := rfl

theorem balanced_offer (d : Dispatch σ) (frame : Outgoing) (bytes : List UInt8) :
    d.Balanced 0 (d.answered bytes (d.outbox.offer frame)) := by
  rcases d.outbox.channel.offer_cases frame with ⟨-, hoffer⟩ | ⟨fault, hoffer⟩
  · simp only [Balanced, Outbox.offer, hoffer, answered, List.length_append, List.length_singleton]
    omega
  · simp only [Balanced, Outbox.offer, hoffer, answered]
    omega

theorem balanced_transmit (d : Dispatch σ) (bytes : List UInt8) :
    d.Balanced 0 (d.answered bytes (d.outbox.transmit bytes)) := by
  cases hencoded : Outgoing.ofEncoded bytes with
  | error fault =>
    simp only [Outbox.transmit, hencoded, answered]
    exact balanced_refl d
  | ok frame =>
    simp only [Outbox.transmit, hencoded]
    exact balanced_offer d frame bytes

/-- A send that waits is counted, so there is something to take back. -/
theorem balanced_finishSend {i : Nat} {frame : Outgoing}
    {answer : Except BusError Unit × Outbox}
    (counted : d.outbox.waiting.length ≤ d.outbox.pending)
    (waits : d.outbox.waiting[i]? = some frame) (h : d.outbox.finishSend i = some answer) :
    d.Balanced 0 (d.answered frame.bytes answer) := by
  have hi : i < d.outbox.waiting.length := (List.getElem?_eq_some_iff.mp waits).1
  have hlength := List.length_eraseIdx_of_lt hi
  rcases d.outbox.channel.offer_cases frame with ⟨-, hoffer⟩ | ⟨fault, hoffer⟩
  · simp only [Outbox.finishSend, waits, hoffer, Option.some.injEq] at h
    rw [← h]
    simp only [Balanced, answered, hlength, List.length_append, List.length_singleton]
    omega
  · simp only [Outbox.finishSend, waits, hoffer] at h
    cases fault with
    | full => cases h
    | closed =>
      cases h
      simp only [Balanced, answered, hlength]
      omega

theorem balanced_abandonSend (d : Dispatch σ) (i : Nat) :
    d.Balanced (d.outbox.abandonedBy (.abandonSend i))
      { d with outbox := d.outbox.abandonSend i } := by
  simp only [Balanced, Outbox.abandonSend, Outbox.abandonedBy, List.length_eraseIdx]
  split <;> omega

theorem balanced_call (stream : ByteStream σ) (counted : d.outbox.waiting.length ≤ d.outbox.pending)
    {move : Outbox.Move} (h : move.isWork = false) :
    d.Balanced (d.outbox.abandonedBy move) (d.step stream move) := by
  cases move with
  | offer frame =>
    simp only [Dispatch.step]
    split
    · exact balanced_refl d
    · exact balanced_offer d frame frame.bytes
  | transmit bytes =>
    simp only [Dispatch.step]
    split
    · exact balanced_refl d
    · exact balanced_transmit d bytes
  | beginSend frame =>
    simp only [Dispatch.step]
    split
    · exact balanced_refl d
    · simp only [Balanced, Outbox.beginSend, Outbox.abandonedBy, List.length_append,
        List.length_singleton]
      omega
  | finishSend i =>
    simp only [Dispatch.step]
    split
    · rename_i waits hfinish
      exact balanced_finishSend counted waits hfinish
    · exact balanced_refl d
  | abandonSend i => exact balanced_abandonSend d i
  | share =>
    simp only [Dispatch.step]
    split <;> exact balanced_refl d
  | dropHandle =>
    simp only [Dispatch.step]
    split <;> exact balanced_refl d
  | work => cases h

end

end Dispatch

/-- A dispatch with the frames of the batches that were written and flushed, and with how
many sends were given up by their callers. -/
structure Ledger (σ : Type) where
  dispatch : Dispatch σ
  flushed : List Outgoing := []
  abandoned : Nat := 0

namespace Ledger

def step (stream : ByteStream σ) (l : Ledger σ) (move : Outbox.Move) : Ledger σ :=
  let dispatch := l.dispatch.step stream move
  { dispatch
    flushed := l.flushed ++ l.dispatch.outbox.task.flushed dispatch.outbox.task
    abandoned := l.abandoned + l.dispatch.outbox.abandonedBy move }

def run (stream : ByteStream σ) (l : Ledger σ) (moves : List Outbox.Move) : Ledger σ :=
  moves.foldl (step stream) l

/-- Every frame accepted is flushed, in the task's hands, queued, or lost to a failure, and
those that are not flushed are counted, together with the sends that wait. -/
structure Counted (l : Ledger σ) : Prop where
  frames : ∃ lost : List Outgoing,
    l.dispatch.accepted = (l.flushed ++ l.dispatch.outbox.task.batch ++
      l.dispatch.outbox.channel.queued ++ lost).map Outgoing.bytes ∧
    ((∀ cause, l.dispatch.outbox.task ≠ .ended (.error cause)) → lost = [])
  pending_eq : l.dispatch.outbox.pending + l.flushed.length =
    l.dispatch.outbox.waiting.length + l.dispatch.accepted.length + l.abandoned
  ended : ∀ result, l.dispatch.outbox.task = .ended result →
    l.dispatch.outbox.channel.receiving = false

namespace Counted

variable {l : Ledger σ}

theorem empty {capacity : Nat} {o : Outbox} (h : Outbox.ofCapacity? capacity = some o) (world : σ) :
    Counted ⟨⟨o, ⟨world, []⟩, []⟩, [], 0⟩ := by
  obtain ⟨channel, hchannel, rfl⟩ := Option.map_eq_some_iff.mp h
  have hqueued : channel.queued = [] := by rw [Channel.eq_of_ofCapacity? hchannel]
  exact ⟨⟨[], by simp [TaskPhase.batch, hqueued], fun _ => rfl⟩, rfl, nofun⟩

/-- Nothing is taken off the count that is not in it. -/
theorem held_le (h : l.Counted) :
    l.dispatch.outbox.waiting.length + l.dispatch.outbox.task.batch.length +
      l.dispatch.outbox.channel.queued.length ≤ l.dispatch.outbox.pending := by
  obtain ⟨lost, hframes, -⟩ := h.frames
  have hlength := congrArg List.length hframes
  simp only [List.length_map, List.length_append] at hlength
  have hpending := h.pending_eq
  omega

theorem called {stream : ByteStream σ} (h : l.Counted) {move : Outbox.Move}
    (hmove : move.isWork = false) : (l.step stream move).Counted := by
  have hcalled := Dispatch.Called.step stream l.dispatch hmove
  have hwaiting : l.dispatch.outbox.waiting.length ≤ l.dispatch.outbox.pending := by
    have hheld := h.held_le
    omega
  have hbalanced := Dispatch.balanced_call stream hwaiting hmove
  have hflushed : (l.step stream move).flushed = l.flushed := by
    simp only [step, hcalled.task, TaskPhase.flushed_self, List.append_nil]
  refine ⟨?_, ?_, fun result hended => ?_⟩
  · obtain ⟨lost, hframes, hlost⟩ := h.frames
    rw [hflushed]
    simp only [step, hcalled.task]
    rcases hcalled.queued with ⟨haccepted, hqueued⟩ | ⟨hopen, frame, haccepted, hqueued⟩
    · exact ⟨lost, by rw [haccepted, hqueued, hframes], hlost⟩
    · -- Somebody takes the frame, so the task has not ended and has lost nothing.
      have hnil : lost = [] := hlost fun cause hended => by
        simp [h.ended _ hended] at hopen
      refine ⟨[], ?_, fun _ => rfl⟩
      simp [haccepted, hqueued, hframes, hnil]
  · have hpending := h.pending_eq
    rw [hflushed]
    simp only [Dispatch.Balanced] at hbalanced
    simp only [step]
    omega
  · exact hcalled.receiving.trans (h.ended result (hcalled.task ▸ hended))

theorem worked {o o' : Outbox} {w w' : Recorded σ} {accepted : List (List UInt8)}
    {flushed : List Outgoing} {abandoned : Nat} (h : Counted ⟨⟨o, w, accepted⟩, flushed, abandoned⟩)
    (alive : ∀ result, o.task ≠ .ended result) (hs : o.Stepped o') :
    Counted ⟨⟨o', w', accepted⟩, flushed ++ o.task.flushed o'.task, abandoned⟩ := by
  obtain ⟨lost, hframes, hlost⟩ := h.frames
  have hnone : lost = [] := hlost fun cause => alive (.error cause)
  have hall : accepted = (flushed ++ o.task.batch ++ o.channel.queued).map Outgoing.bytes := by
    simpa only [hnone, List.append_nil] using hframes
  have hpending : o.pending + flushed.length = o.waiting.length + accepted.length + abandoned :=
    h.pending_eq
  cases hs with
  | took queued =>
    rw [TaskPhase.flushed_gathering, List.append_nil]
    refine ⟨⟨[], ?_, fun _ => rfl⟩, hpending, by simp⟩
    rw [hall, queued]
    simp [TaskPhase.batch.eq_1]
  | went same going =>
    rw [going.1, List.append_nil]
    refine ⟨⟨[], ?_, fun _ => rfl⟩, hpending, fun result hended => absurd hended (going.2 result)⟩
    rw [hall, same, List.append_nil]
  | @flushed batch phase =>
    have hbatch : o.task.batch = batch := by rw [phase]; rfl
    have hflushed : o.task.flushed .waiting = batch := by rw [phase]; rfl
    rw [hflushed]
    refine ⟨⟨[], ?_, fun _ => rfl⟩, ?_, by simp⟩
    · rw [hall, hbatch]
      simp [TaskPhase.batch]
    · -- The batch is among the frames accepted, so there is enough to subtract from.
      have hlength := congrArg List.length hall
      simp only [List.length_map, List.length_append, hbatch] at hlength
      simp only [List.length_append]
      omega
  | @ended result left_over =>
    simp only [Outbox.finish, TaskPhase.flushed_ended, List.append_nil]
    refine ⟨⟨o.task.batch ++ o.channel.queued, ?_, fun hgoing => ?_⟩, hpending, fun _ _ => rfl⟩
    · rw [hall]
      simp [Channel.close, TaskPhase.batch.eq_5]
    · cases result with
      | error cause => exact absurd rfl (hgoing cause)
      | ok =>
        obtain ⟨hbatch, hqueued⟩ := left_over rfl
        rw [hbatch, hqueued]
        rfl

theorem step (h : l.Counted) (stream : ByteStream σ) (move : Outbox.Move) :
    (l.step stream move).Counted := by
  cases hmove : move.isWork with
  | false => exact h.called hmove
  | true =>
    cases move with
    | work =>
      cases hstep : l.dispatch.outbox.step stream.recorded l.dispatch.stream with
      | none =>
        have hsame : l.step stream .work = l := by
          simp only [Ledger.step, Dispatch.step, hstep, TaskPhase.flushed_self, List.append_nil,
            Outbox.abandonedBy, Nat.add_zero]
        rwa [hsame]
      | some worked =>
        obtain ⟨o, w⟩ := worked
        obtain ⟨alive, hstepped⟩ := Outbox.stepped_of_step hstep
        have hnext : Counted ⟨⟨o, w, l.dispatch.accepted⟩, _, l.abandoned⟩ :=
          h.worked alive hstepped
        simpa only [Ledger.step, Dispatch.step, hstep, Outbox.abandonedBy, Nat.add_zero] using hnext
    | offer | transmit | beginSend | finishSend | abandonSend | share | dropHandle => cases hmove

theorem run (h : l.Counted) (stream : ByteStream σ) (moves : List Outbox.Move) :
    (l.run stream moves).Counted := by
  induction moves generalizing l with
  | nil => exact h
  | cons move rest ih => exact ih (h.step stream move)

/-- As long as the stream has not failed, what is counted is all there is. -/
theorem pending_of_going (h : l.Counted)
    (going : ∀ cause, l.dispatch.outbox.task ≠ .ended (.error cause)) :
    l.dispatch.outbox.pending = l.dispatch.outbox.waiting.length +
      l.dispatch.outbox.task.batch.length + l.dispatch.outbox.channel.queued.length +
        l.abandoned := by
  obtain ⟨lost, hframes, hlost⟩ := h.frames
  have hlength := congrArg List.length hframes
  have hpending := h.pending_eq
  simp only [hlost going, List.append_nil, List.length_map, List.length_append] at hlength
  omega

theorem flushed_prefix (h : l.Counted) : l.flushed.map Outgoing.bytes <+: l.dispatch.accepted := by
  obtain ⟨lost, hframes, -⟩ := h.frames
  rw [hframes, List.append_assoc, List.append_assoc, List.map_append]
  exact List.prefix_append _ _

end Counted

section

variable {stream : ByteStream σ}

theorem dispatch_run (l : Ledger σ) (moves : List Outbox.Move) :
    (l.run stream moves).dispatch = l.dispatch.run stream moves := by
  induction moves generalizing l with
  | nil => rfl
  | cons move rest ih => exact ih (l.step stream move)

theorem abandoned_run (l : Ledger σ) {moves : List Outbox.Move}
    (patient : ∀ i, .abandonSend i ∉ moves) : (l.run stream moves).abandoned = l.abandoned := by
  induction moves generalizing l with
  | nil => rfl
  | cons move rest ih =>
    have hrest : ∀ i, .abandonSend i ∉ rest := fun i hmem => patient i (.tail _ hmem)
    have hone : (l.step stream move).abandoned = l.abandoned := by
      cases move with
      | abandonSend i => exact absurd (.head _) (patient i)
      | offer | transmit | beginSend | finishSend | share | dropHandle | work => rfl
    exact (ih (l.step stream move) hrest).trans hone

/-- A step that ends the task, or finds it ended, flushes nothing. -/
theorem flushed_of_ended {l : Ledger σ} {move : Outbox.Move} {result : Except BusError Unit}
    (ended : (l.step stream move).dispatch.outbox.task = .ended result) :
    (l.step stream move).flushed = l.flushed := by
  have hnone := l.dispatch.outbox.task.flushed_ended result
  rw [← ended] at hnone
  exact (congrArg (l.flushed ++ ·) hnone).trans (List.append_nil _)

/-- Nothing is accepted and nothing flushed once the task has ended. -/
theorem run_of_ended {l : Ledger σ} (h : l.Counted) {result : Except BusError Unit}
    (ended : l.dispatch.outbox.task = .ended result) (moves : List Outbox.Move) :
    (l.run stream moves).dispatch.outbox.task = .ended result ∧
      (l.run stream moves).dispatch.accepted = l.dispatch.accepted ∧
      (l.run stream moves).flushed = l.flushed := by
  induction moves generalizing l with
  | nil => exact ⟨ended, rfl, rfl⟩
  | cons move rest ih =>
    have htask : (l.step stream move).dispatch.outbox.task = .ended result ∧
        (l.step stream move).dispatch.accepted = l.dispatch.accepted := by
      cases hmove : move.isWork with
      | false =>
        have hcalled := Dispatch.Called.step stream l.dispatch hmove
        refine ⟨hcalled.task.trans ended, ?_⟩
        rcases hcalled.queued with ⟨haccepted, -⟩ | ⟨hopen, -⟩
        · exact haccepted
        · simp [h.ended result ended] at hopen
      | true =>
        cases move with
        | work =>
          simp only [step, Dispatch.step, Outbox.step, ended]
          exact ⟨trivial, trivial⟩
        | offer | transmit | beginSend | finishSend | abandonSend | share | dropHandle =>
          cases hmove
    have hflushed := flushed_of_ended htask.1
    obtain ⟨hrun, haccepted, hsame⟩ := ih (h.step stream move) htask.1
    exact ⟨hrun, haccepted.trans htask.2, hsame.trans hflushed⟩

/-- As long as the stream has not failed it has taken what was flushed: all that is accepted
and not flushed is in a batch, of which it has taken the front, or still queued. -/
theorem taken_of_going {l : Ledger σ} (h : l.Counted) (hd : l.dispatch.InOrder)
    (going : ∀ cause, l.dispatch.outbox.task ≠ .ended (.error cause)) :
    l.flushed.flatMap Outgoing.bytes <+: l.dispatch.stream.taken := by
  obtain ⟨lost, hframes, hlost⟩ := h.frames
  obtain ⟨lost', hbytes, hlost'⟩ := hd.accounted
  obtain ⟨written, hwritten⟩ := l.dispatch.outbox.task.exists_written
  rw [hframes, hlost going, hlost' going, ← List.flatMap_def] at hbytes
  simp only [List.append_nil, List.flatMap_append, hwritten, Outbox.unwritten,
    ← List.append_assoc] at hbytes
  have htaken := List.append_cancel_right (List.append_cancel_right hbytes)
  exact ⟨written, htaken⟩

theorem taken_step {l : Ledger σ} (modest : stream.Modest) (h : l.Counted)
    (hd : l.dispatch.InOrder) (ht : l.flushed.flatMap Outgoing.bytes <+: l.dispatch.stream.taken)
    (move : Outbox.Move) :
    (l.step stream move).flushed.flatMap Outgoing.bytes <+:
      (l.step stream move).dispatch.stream.taken := by
  have htaken : l.dispatch.stream.taken <+: (l.step stream move).dispatch.stream.taken := by
    rcases Dispatch.step_cases modest l.dispatch move with
      ⟨-, hcalled⟩ | ⟨-, hsame, -⟩ | ⟨-, o, w, hworked, hstep⟩
    · simp only [step, hcalled.stream, List.prefix_refl]
    · simp only [step, hsame, List.prefix_refl]
    · simpa only [step, hstep] using hworked.taken_prefix
  by_cases hfailed : ∃ cause, (l.step stream move).dispatch.outbox.task = .ended (.error cause)
  · obtain ⟨cause, hended⟩ := hfailed
    rw [flushed_of_ended hended]
    exact ht.trans htaken
  · exact taken_of_going (h.step stream move) (hd.step modest move) (not_exists.mp hfailed)

theorem taken_run {l : Ledger σ} (modest : stream.Modest) (h : l.Counted)
    (hd : l.dispatch.InOrder) (ht : l.flushed.flatMap Outgoing.bytes <+: l.dispatch.stream.taken)
    (moves : List Outbox.Move) :
    (l.run stream moves).flushed.flatMap Outgoing.bytes <+:
      (l.run stream moves).dispatch.stream.taken := by
  induction moves generalizing l with
  | nil => exact ht
  | cons move rest ih =>
    exact ih (h.step stream move) (hd.step modest move) (taken_step modest h hd ht move)

end

/-- The count of an outbox is exact, whatever its handles and its task do in whatever order
as long as no send is given up: counted are the sends that wait and the frames accepted,
without those of the batches written and flushed. So there is always enough to take a batch
off; a call that is refused leaves the count as it was; after a failure of the stream only
sends that wait come and go; and with nothing on its way nothing is counted. -/
theorem pending_exact (stream : ByteStream σ) {capacity : Nat} {o : Outbox}
    (made : Outbox.ofCapacity? capacity = some o) (world : σ) (moves : List Outbox.Move)
    (patient : ∀ i, .abandonSend i ∉ moves) :
    let l := run stream ⟨⟨o, ⟨world, []⟩, []⟩, [], 0⟩ moves
    let d := l.dispatch
    d = Dispatch.run stream ⟨o, ⟨world, []⟩, []⟩ moves ∧
      l.flushed.map Outgoing.bytes <+: d.accepted ∧
      (stream.Modest → l.flushed.flatMap Outgoing.bytes <+: d.stream.taken) ∧
      d.outbox.pending + l.flushed.length = d.outbox.waiting.length + d.accepted.length ∧
      (∀ batch, d.outbox.task = .flushing batch → batch.length ≤ d.outbox.pending) ∧
      (∀ frame cause, (d.outbox.offer frame).1 = .error cause →
        (cause = .queueFull ∨ cause = .channelClosed) ∧ (d.outbox.offer frame).2 = d.outbox) ∧
      (∀ bytes cause, (d.outbox.transmit bytes).1 = .error cause →
        ((∃ fault, cause = .badParam fault) ∨ cause = .queueFull ∨ cause = .channelClosed) ∧
          (d.outbox.transmit bytes).2 = d.outbox) ∧
      (∀ frame, (d.outbox.beginSend frame).pending = d.outbox.pending + 1) ∧
      (∀ i cause o', d.outbox.finishSend i = some (.error cause, o') →
        cause = .channelClosed ∧ o'.pending + 1 = d.outbox.pending ∧
          o'.waiting.length + 1 = d.outbox.waiting.length) ∧
      (∀ cause, d.outbox.task = .ended (.error cause) → ∀ more : List Outbox.Move,
        (∀ i, .abandonSend i ∉ more) →
          let d' := (l.run stream more).dispatch
          d'.outbox.task = .ended (.error cause) ∧ d'.accepted = d.accepted ∧
            (l.run stream more).flushed = l.flushed ∧
            d'.outbox.pending + d.outbox.waiting.length =
              d.outbox.pending + d'.outbox.waiting.length) ∧
      ((∀ cause, d.outbox.task ≠ .ended (.error cause)) → d.outbox.task.batch = [] →
        d.outbox.channel.queued = [] → d.outbox.waiting = [] → d.outbox.pending = 0) := by
  intro l d
  have hempty := Counted.empty made world
  have h : l.Counted := hempty.run stream moves
  have hnone : l.abandoned = 0 := abandoned_run _ patient
  have hdispatch : d = Dispatch.run stream ⟨o, ⟨world, []⟩, []⟩ moves := dispatch_run _ moves
  have hheld : d.outbox.waiting.length + d.outbox.task.batch.length +
    d.outbox.channel.queued.length ≤ d.outbox.pending := h.held_le
  have hpending : d.outbox.pending + l.flushed.length =
    d.outbox.waiting.length + d.accepted.length + l.abandoned := h.pending_eq
  have hwaiting : d.outbox.waiting.length ≤ d.outbox.pending := by omega
  refine ⟨hdispatch, h.flushed_prefix, fun modest => ?_, ?_, fun batch phase => ?_,
    fun frame cause => Outbox.offer_refused, fun bytes cause => Outbox.transmit_refused,
    fun frame => rfl, fun i cause o' => Outbox.finishSend_refused hwaiting,
    fun cause ended more patient' => ?_, fun going hbatch hqueued hwaits => ?_⟩
  · exact taken_run modest hempty (.empty made world) (List.prefix_refl _) moves
  · rwa [hnone, Nat.add_zero] at hpending
  · have hbatch : d.outbox.task.batch = batch := by rw [phase]; rfl
    rw [hbatch] at hheld
    omega
  · obtain ⟨htask, haccepted, hflushed⟩ := run_of_ended h ended more
    have hpending' := (h.run stream more).pending_eq
    have hsame : (l.run stream more).abandoned = l.abandoned := abandoned_run l patient'
    refine ⟨htask, haccepted, hflushed, ?_⟩
    rw [haccepted, hflushed, hsame] at hpending'
    simp only [d] at hpending ⊢
    omega
  · have hgoing := h.pending_of_going going
    rw [hbatch, hqueued, hwaits, hnone] at hgoing
    exact hgoing

/-- One frame is flushed, the stream fails in the next while a third is queued and a fourth
waits for room; then the fourth is refused. -/
theorem pending_exact_after_failure :
    let script : ScriptedStream := { writes := [.all, .atMost 3, .fail ⟨.brokenPipe, "gone"⟩] }
    let o : Outbox := { channel := { capacity := 1 } }
    let frame (opCode : UInt8) : Outgoing := ⟨⟨1, 2, opCode, 0⟩, []⟩
    let moves : List Outbox.Move :=
      [.offer (frame 1)] ++ List.replicate 5 .work ++ [.offer (frame 2), .offer (frame 9), .work,
        .work, .beginSend (frame 3), .finishSend 0, .beginSend (frame 4), .finishSend 0, .work,
        .work]
    let l := run ScriptedStream.stream ⟨⟨o, ⟨script, []⟩, []⟩, [], 0⟩ moves
    Outbox.ofCapacity? 1 = some o ∧ (∀ i, .abandonSend i ∉ moves) ∧
      l.dispatch.outbox.task = .ended (.error (.stream ⟨.brokenPipe, "gone"⟩)) ∧
      l.flushed = [frame 1] ∧ l.dispatch.accepted.length = 3 ∧ l.dispatch.outbox.pending = 3 ∧
      (l.run ScriptedStream.stream [.finishSend 0]).dispatch.outbox.pending = 2 := by
  intro script o frame moves
  have made : Outbox.ofCapacity? 1 = some o := rfl
  have patient : ∀ i, .abandonSend i ∉ moves := by simp [moves]
  have hexact := pending_exact ScriptedStream.stream made script moves patient
  have hended : (run ScriptedStream.stream ⟨⟨o, ⟨script, []⟩, []⟩, [], 0⟩
    moves).dispatch.outbox.task = .ended (.error (.stream ⟨.brokenPipe, "gone"⟩)) := by
      decide +kernel
  have hflushed : (run ScriptedStream.stream ⟨⟨o, ⟨script, []⟩, []⟩, [], 0⟩ moves).flushed =
    [frame 1] := by decide +kernel
  have haccepted : (run ScriptedStream.stream ⟨⟨o, ⟨script, []⟩, []⟩, [], 0⟩
    moves).dispatch.accepted.length = 3 := by decide +kernel
  have hwaiting : (run ScriptedStream.stream ⟨⟨o, ⟨script, []⟩, []⟩, [], 0⟩
    moves).dispatch.outbox.waiting.length = 1 := by decide +kernel
  have hrefused : ((run ScriptedStream.stream ⟨⟨o, ⟨script, []⟩, []⟩, [], 0⟩ moves).run
    ScriptedStream.stream [.finishSend 0]).dispatch.outbox.waiting.length = 0 := by decide +kernel
  generalize run ScriptedStream.stream ⟨⟨o, ⟨script, []⟩, []⟩, [], 0⟩ moves = l at *
  obtain ⟨-, -, -, hpending, -, -, -, -, -, hfailed, -⟩ := hexact
  obtain ⟨-, -, -, hafter⟩ := hfailed _ hended [.finishSend 0] (by simp)
  rw [hflushed, hwaiting, haccepted] at hpending
  rw [hrefused, hwaiting] at hafter
  have hcount : l.dispatch.outbox.pending = 3 := Nat.succ.inj hpending
  rw [hcount] at hafter
  exact ⟨made, patient, hended, hflushed, haccepted, hcount, Nat.succ.inj hafter⟩

end Ledger

end TwoWire
