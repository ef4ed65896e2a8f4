import TwoWire.Bench.Stream
import TwoWire.Proofs.OutboxRun

/-! What an outbox accepts is what its stream is given, byte for byte and in order: each
byte is taken by the stream, or waits to be, or is lost to a failure of the stream. -/

namespace TwoWire

variable {σ : Type}

/-- The frames that the task has taken and not yet seen through. -/
def TaskPhase.batch : TaskPhase → List Outgoing
  | gathering batch | writing batch _ | flushing batch => batch
  | waiting | ended _ => []

def TaskPhase.unwritten : TaskPhase → List UInt8
  | gathering batch => batch.flatMap Outgoing.bytes
  | writing batch written => (batch.flatMap Outgoing.bytes).drop written
  | waiting | flushing _ | ended _ => []

instance (phase : TaskPhase) : Decidable (phase = .ended (.ok ())) :=
  match phase with
  | .ended (.ok ()) => isTrue rfl
  | .waiting | .gathering _ | .writing _ _ | .flushing _ | .ended (.error _) => isFalse nofun

/-- What the stream has still to take, in order. -/
def Outbox.unwritten (o : Outbox) : List UInt8 :=
  o.task.unwritten ++ o.channel.queued.flatMap Outgoing.bytes

def Clean (answers : List StreamAnswer) : Prop :=
  ∀ answer ∈ answers, answer.failure? = none

/-- The last that the stream was asked for is to see through what it had taken. -/
def SeenThrough (answers : List StreamAnswer) : Prop :=
  ∀ answer, answers.getLast? = some answer → answer = .flush (.ready ())

/-- Where the task is after the answers of its stream: it goes on as long as none is a
failure, ends with the first one that is, and gets to the next batch, or to its good end,
by way of a flush. -/
def TaskPhase.Follows (answers : List StreamAnswer) : TaskPhase → Prop
  | waiting | gathering _ | ended (.ok ()) => Clean answers ∧ SeenThrough answers
  | writing _ _ | flushing _ => Clean answers
  | ended (.error cause) => ∃ before last fault, answers = before ++ [last] ∧ Clean before ∧
      last.failure? = some fault ∧ cause = .stream fault

theorem Clean.note {answers : List StreamAnswer} {answer : StreamAnswer} (h : Clean answers)
    (clean : answer.failure? = none) : Clean (answers ++ [answer]) := by
  intro a ha
  rcases List.mem_append.mp ha with ha | ha
  · exact h a ha
  · rwa [List.mem_singleton.mp ha]

theorem TaskPhase.Follows.clean_or_failed {answers : List StreamAnswer} {phase : TaskPhase}
    (h : phase.Follows answers) :
    (Clean answers ∧ ∀ cause, phase ≠ .ended (.error cause)) ∨
      ∃ before last fault, answers = before ++ [last] ∧ Clean before ∧
        last.failure? = some fault ∧ phase = .ended (.error (.stream fault)) := by
  match phase, h with
  | .waiting, h | .gathering _, h | .ended (.ok ()), h => exact .inl ⟨h.1, nofun⟩
  | .writing _ _, h | .flushing _, h => exact .inl ⟨h, nofun⟩
  | .ended (.error _), ⟨before, last, fault, hanswers, hclean, hfailure, rfl⟩ =>
    exact .inr ⟨before, last, fault, hanswers, hclean, hfailure, rfl⟩

theorem TaskPhase.Follows.clean_dropLast {answers : List StreamAnswer} {phase : TaskPhase}
    (h : phase.Follows answers) : Clean answers.dropLast := by
  rcases h.clean_or_failed with ⟨hclean, -⟩ | ⟨before, last, fault, rfl, hclean, -⟩
  · exact fun answer hmem => hclean answer (List.dropLast_subset answers hmem)
  · rwa [List.dropLast_concat]

theorem TaskPhase.Follows.failed_iff {answers : List StreamAnswer} {phase : TaskPhase}
    (h : phase.Follows answers) (cause : BusError) :
    phase = .ended (.error cause) ↔ ∃ last fault, answers.getLast? = some last ∧
      last.failure? = some fault ∧ cause = .stream fault := by
  rcases h.clean_or_failed with ⟨hclean, hgoing⟩ | ⟨before, last, fault, rfl, -, hfailure, rfl⟩
  · refine ⟨fun hended => absurd hended (hgoing cause), ?_⟩
    rintro ⟨last, fault, hlast, hfailure, -⟩
    simp [hclean last (List.mem_of_getLast? hlast)] at hfailure
  · rw [List.getLast?_concat]
    constructor
    · rintro ⟨⟩
      exact ⟨last, fault, rfl, hfailure, rfl⟩
    · rintro ⟨_, fault', ⟨⟩, hfailure', rfl⟩
      rw [Option.some.inj (hfailure.symm.trans hfailure')]

namespace Outbox.Worked

variable {o o' : Outbox} {w w' : Recorded σ}

/-- A step of the task takes no byte twice and leaves none out, unless the stream fails. -/
theorem conserves (h : o.Worked w o' w') :
    w'.taken ++ o'.unwritten = w.taken ++ o.unwritten ∨
      ∃ cause, o'.task = .ended (.error cause) ∧ w'.taken = w.taken ∧ o'.unwritten = [] := by
  cases h with
  | first phase queued => exact .inl (by simp [unwritten, TaskPhase.unwritten, phase, queued])
  | more phase room queued => exact .inl (by simp [unwritten, TaskPhase.unwritten, phase, queued])
  | gathered phase => exact .inl (by simp [unwritten, TaskPhase.unwritten, phase])
  | @wrote batch written n world phase =>
    left
    -- What is taken and what is left over are the two parts of what was offered.
    have hsplit := List.take_append_drop n ((batch.flatMap Outgoing.bytes).drop written)
    rw [List.drop_drop] at hsplit
    simp only [Recorded.taken_note, StreamAnswer.taken, unwritten, TaskPhase.unwritten, phase,
      List.append_assoc]
    rw [← List.append_assoc (List.take n _), hsplit]
  | written phase all =>
    left
    have hnil := List.drop_eq_nil_of_le (Outgoing.length_flatMap_bytes _ ▸ all)
    simp [unwritten, TaskPhase.unwritten, phase, hnil]
  | flushed phase =>
    left
    simp [unwritten, TaskPhase.unwritten, phase, StreamAnswer.taken]
  | delayed phase delay clean idle => exact .inl (by simp [idle])
  | @failed answer cause world phase failure idle =>
    exact .inr ⟨.stream cause, rfl, by simp [idle], rfl⟩
  | finished phase queued =>
    left
    simp [unwritten, TaskPhase.unwritten, phase, queued, finish, Channel.close]

theorem follows (h : o.Worked w o' w') (answers : o.task.Follows w.answers) :
    o'.task.Follows w'.answers := by
  cases h with
  | first phase | more phase =>
    rw [phase] at answers
    exact answers
  | gathered phase =>
    rw [phase] at answers
    exact answers.1
  | wrote phase some_taken =>
    rw [phase] at answers
    refine Clean.note answers ?_
    simp only [StreamAnswer.failure?]
    split <;> simp_all
  | written phase =>
    rw [phase] at answers
    exact answers
  | flushed phase =>
    rw [phase] at answers
    refine ⟨Clean.note answers rfl, fun answer hlast => ?_⟩
    rw [Recorded.note, List.getLast?_concat] at hlast
    exact (Option.some.inj hlast).symm
  | delayed phase delay clean =>
    rcases phase with ⟨batch, written, phase⟩ | ⟨batch, phase⟩ <;> rw [phase] at answers ⊢ <;>
      exact Clean.note answers clean
  | failed phase failure =>
    refine ⟨w.answers, _, _, rfl, ?_, failure, rfl⟩
    rcases phase with ⟨batch, written, phase⟩ | ⟨batch, phase⟩ <;> rw [phase] at answers <;>
      exact answers
  | finished phase =>
    rw [phase] at answers
    exact answers

end Outbox.Worked

namespace Dispatch

/-- What holds of an outbox at any time. -/
structure InOrder (d : Dispatch σ) : Prop where
  accounted : ∃ lost, d.accepted.flatten = d.stream.taken ++ d.outbox.unwritten ++ lost ∧
    ((∀ cause, d.outbox.task ≠ .ended (.error cause)) → lost = [])
  follows : d.outbox.task.Follows d.stream.answers
  batch_le : d.outbox.task.batch.length ≤ batchLimit
  written_le : ∀ batch written, d.outbox.task = .writing batch written →
    written ≤ Outgoing.totalSize batch
  ended : ∀ result, d.outbox.task = .ended result →
    d.outbox.channel.receiving = false ∧ d.outbox.channel.queued = []
  deserted : d.outbox.task = .ended (.ok ()) → d.outbox.channel.senders = 0
  held : d.outbox.waiting ≠ [] → 0 < d.outbox.channel.senders

namespace InOrder

variable {d d' : Dispatch σ}

theorem empty {capacity : Nat} {o : Outbox} (h : Outbox.ofCapacity? capacity = some o) (world : σ) :
    InOrder ⟨o, ⟨world, []⟩, []⟩ := by
  obtain ⟨channel, hchannel, rfl⟩ := Option.map_eq_some_iff.mp h
  have hempty : channel.queued = [] := by
    unfold Channel.ofCapacity? at hchannel
    split at hchannel
    · cases hchannel
    · cases hchannel
      rfl
  refine ⟨⟨[], ?_, fun _ => rfl⟩, ⟨nofun, nofun⟩, Nat.zero_le _, nofun, nofun, nofun, nofun⟩
  simp [Recorded.taken, Outbox.unwritten, TaskPhase.unwritten, hempty]

theorem called (h : d.InOrder) (hc : d.Called d') : d'.InOrder where
  accounted := by
    obtain ⟨lost, hbytes, hlost⟩ := h.accounted
    rw [hc.stream, hc.task]
    rcases hc.queued with ⟨haccepted, hqueued⟩ | ⟨hreceiving, frame, haccepted, hqueued⟩
    · refine ⟨lost, ?_, hlost⟩
      rw [haccepted, hbytes, Outbox.unwritten, Outbox.unwritten, hc.task, hqueued]
    · -- Somebody still takes frames, so the stream has not failed and nothing is lost.
      have hnil : lost = [] := hlost fun cause hended => by
        simp [(h.ended _ hended).1] at hreceiving
      refine ⟨[], ?_, fun _ => rfl⟩
      simp [haccepted, hbytes, Outbox.unwritten, hc.task, hqueued, hnil]
  follows := by
    rw [hc.stream, hc.task]
    exact h.follows
  batch_le := hc.task ▸ h.batch_le
  written_le := hc.task ▸ h.written_le
  ended result hended := by
    obtain ⟨hreceiving, hqueued⟩ := h.ended result (hc.task ▸ hended)
    refine ⟨hc.receiving.trans hreceiving, ?_⟩
    rcases hc.queued with ⟨-, hq⟩ | ⟨hopen, -⟩
    · exact hq.trans hqueued
    · simp [hreceiving] at hopen
  deserted hended := hc.deserted (h.deserted (hc.task ▸ hended))
  held := hc.held h.held

theorem worked {accepted : List (List UInt8)} {o o' : Outbox} {w w' : Recorded σ}
    (h : InOrder ⟨o, w, accepted⟩) (hw : o.Worked w o' w') : InOrder ⟨o', w', accepted⟩ where
  accounted := by
    obtain ⟨lost, hbytes, hlost⟩ := h.accounted
    have hgoing : ∀ cause, o.task ≠ .ended (.error cause) := by
      cases hw with
      | first phase | more phase | gathered phase | wrote phase | written phase | flushed phase
      | finished phase => simp [phase]
      | delayed phase | failed phase =>
        rcases phase with ⟨_, _, phase⟩ | ⟨_, phase⟩ <;> simp [phase]
    rcases hw.conserves with hsame | ⟨cause, hended, htaken, hnone⟩
    · refine ⟨lost, ?_, fun _ => hlost hgoing⟩
      rw [hbytes, hsame]
    · -- What a failure leaves unwritten is lost, and there is only one failure.
      refine ⟨o.unwritten ++ lost, ?_, fun hne => absurd hended (hne cause)⟩
      simp [hbytes, htaken, hnone]
  follows := hw.follows h.follows
  batch_le := by
    have hle := h.batch_le
    cases hw with
    | first => exact Nat.succ_le_of_lt (by decide)
    | more phase room => simpa [TaskPhase.batch] using Nat.succ_le_of_lt room
    | gathered phase | wrote phase | written phase => rwa [phase] at hle
    | delayed => exact hle
    | flushed | failed | finished => exact Nat.zero_le _
  written_le batch written hphase := by
    cases hw with
    | gathered =>
      cases hphase
      exact Nat.zero_le _
    | wrote phase some_taken le_left =>
      cases hphase
      have := h.written_le _ _ phase
      omega
    | delayed => exact h.written_le batch written hphase
    | first | more | written | flushed | failed | finished => cases hphase
  ended result hended := by
    cases hw with
    | failed | finished => exact ⟨rfl, rfl⟩
    | delayed => exact h.ended result hended
    | first | more | gathered | wrote | written | flushed => cases hended
  deserted hended := by
    cases hw with
    | finished phase queued senders => exact senders
    | delayed => exact h.deserted hended
    | first | more | gathered | wrote | written | flushed | failed => cases hended
  held := by
    cases hw <;> exact h.held

variable {stream : ByteStream σ}

theorem step (h : d.InOrder) (modest : stream.Modest) (move : Outbox.Move) :
    (d.step stream move).InOrder := by
  rcases step_cases modest d move with ⟨-, hcalled⟩ | ⟨-, hsame, -⟩ | ⟨-, o, w, hworked, hstep⟩
  · exact h.called hcalled
  · rwa [hsame]
  · rw [hstep]
    exact worked h hworked

theorem run (h : d.InOrder) (modest : stream.Modest) (moves : List Outbox.Move) :
    (d.run stream moves).InOrder := by
  induction moves generalizing d with
  | nil => exact h
  | cons move rest ih => exact ih (h.step modest move)

/-- While a batch is written, a step of the task ends that, or leaves fewer bytes, or has
found the stream not ready; a call of a handle changes nothing about it. -/
theorem step_of_writing (h : d.InOrder) (modest : stream.Modest) {batch : List Outgoing}
    {written : Nat} (phase : d.outbox.task = .writing batch written) (move : Outbox.Move) :
    let d' := d.step stream move
    (d'.outbox.task = .flushing batch ∨ ∃ cause, d'.outbox.task = .ended (.error cause)) ∨
      ∃ written', d'.outbox.task = .writing batch written' ∧
        Outgoing.totalSize batch - written' + (if move.isWork then 1 else 0) + d.stream.delays ≤
          Outgoing.totalSize batch - written + d'.stream.delays := by
  intro d'
  rcases step_cases modest d move with
    ⟨hmove, hcalled⟩ | ⟨-, -, hrests⟩ | ⟨hmove, o, w, hworked, hstep⟩
  · exact .inr ⟨written, hcalled.task.trans phase, by simp [d', hcalled.stream, hmove]⟩
  · simp [phase] at hrests
  · simp only [d', hstep, hmove, ↓reduceIte]
    have hle := h.written_le batch written phase
    cases hworked with
    | @wrote batch' written₀ n world phase' some_taken le_left =>
      obtain ⟨rfl, rfl⟩ := TaskPhase.writing.inj (phase.symm.trans phase')
      refine .inr ⟨written + n, rfl, ?_⟩
      simp only [Recorded.delays_note, StreamAnswer.isDelay]
      omega
    | delayed phase' delay =>
      refine .inr ⟨written, phase, ?_⟩
      simp only [Recorded.delays_note, delay, ↓reduceIte]
      omega
    | written phase' =>
      obtain ⟨rfl, rfl⟩ := TaskPhase.writing.inj (phase.symm.trans phase')
      exact .inl (.inl rfl)
    | failed => exact .inl (.inr ⟨_, rfl⟩)
    | first phase' | more phase' | gathered phase' | flushed phase' | finished phase' =>
      cases phase.symm.trans phase'

/-- So the task writes no longer at a batch than there are bytes left of it, and one step
more for each time that the stream is not ready. -/
theorem run_of_writing (h : d.InOrder) (modest : stream.Modest) {batch : List Outgoing}
    {written : Nat} (phase : d.outbox.task = .writing batch written) (moves : List Outbox.Move)
    (enough : Outgoing.totalSize batch - written + (d.run stream moves).stream.delays <
      moves.countP (·.isWork) + d.stream.delays) :
    ∃ k ≤ moves.length, (d.run stream (moves.take k)).outbox.task = .flushing batch ∨
      ∃ cause, (d.run stream (moves.take k)).outbox.task = .ended (.error cause) := by
  induction moves generalizing d written with
  | nil =>
    simp only [Dispatch.run, List.foldl_nil, List.countP_nil] at enough
    omega
  | cons move rest ih =>
    rcases h.step_of_writing modest phase move with hthere | ⟨written', hphase, hless⟩
    · exact ⟨1, Nat.succ_le_succ (Nat.zero_le _), hthere⟩
    · have hrun : d.run stream (move :: rest) = (d.step stream move).run stream rest := rfl
      rw [hrun, List.countP_cons] at enough
      obtain ⟨k, hk, hthere⟩ := ih (h.step modest move) hphase (by omega)
      exact ⟨k + 1, Nat.succ_le_succ hk, hthere⟩

/-- The task that has ended asks nothing more of its stream. -/
theorem run_of_ended {result : Except BusError Unit} (modest : stream.Modest)
    (hended : d.outbox.task = .ended result) (moves : List Outbox.Move) :
    (d.run stream moves).stream = d.stream ∧ (d.run stream moves).outbox.task = .ended result := by
  induction moves generalizing d with
  | nil => exact ⟨rfl, hended⟩
  | cons move rest ih =>
    have hrun : d.run stream (move :: rest) = (d.step stream move).run stream rest := rfl
    rw [hrun]
    rcases step_cases modest d move with ⟨-, hcalled⟩ | ⟨-, hsame, -⟩ | ⟨-, o, w, hworked, -⟩
    · rw [← hcalled.stream]
      exact ih (hcalled.task.trans hended)
    · rw [hsame]
      exact ih hended
    · cases hworked with
      | first phase | more phase | gathered phase | wrote phase | written phase | flushed phase
      | finished phase => cases hended.symm.trans phase
      | delayed phase | failed phase =>
        rcases phase with ⟨_, _, phase⟩ | ⟨_, phase⟩ <;> cases hended.symm.trans phase

end InOrder

/-- Whatever its handles and its task do in whatever order, an outbox gives its stream the
frames it has accepted, in the order in which it has, and nothing else: what the stream has
taken is the front of them, and unless the stream has failed the rest still waits. A batch
has an end. The task ends well only when no handle is left, of the one that there was and
those shared from it, and the stream has taken all of it and seen it through; and badly at
the first failure of the stream, with that failure, after which the stream is asked nothing
more. -/
theorem written_in_order {stream : ByteStream σ} (modest : stream.Modest) {capacity : Nat}
    {o : Outbox} (made : Outbox.ofCapacity? capacity = some o) (world : σ)
    (moves : List Outbox.Move) :
    let start : Dispatch σ := ⟨o, ⟨world, []⟩, []⟩
    let d := run stream start moves
    (∀ (o' : Outbox) w,
        (o'.step stream.recorded w).map (fun (o', w) => (o', w.world)) = o'.step stream w.world) ∧
      d.outbox.channel.senders + tally stream loses start moves =
        1 + tally stream gains start moves ∧
      d.stream.taken <+: d.accepted.flatten ∧
      ((∀ cause, d.outbox.task ≠ .ended (.error cause)) →
        d.accepted.flatten = d.stream.taken ++ d.outbox.unwritten) ∧
      d.outbox.task.batch.length ≤ batchLimit ∧
      (∀ batch written, d.outbox.task = .writing batch written → ∀ more : List Outbox.Move,
        Outgoing.totalSize batch - written + (d.run stream more).stream.delays <
            more.countP (·.isWork) + d.stream.delays →
          ∃ k ≤ more.length, (d.run stream (more.take k)).outbox.task = .flushing batch ∨
            ∃ cause, (d.run stream (more.take k)).outbox.task = .ended (.error cause)) ∧
      (d.outbox.task = .ended (.ok ()) →
        d.outbox.channel.senders = 0 ∧ d.outbox.waiting = [] ∧
          d.stream.taken = d.accepted.flatten ∧ SeenThrough d.stream.answers) ∧
      Clean d.stream.answers.dropLast ∧
      (∀ cause, d.outbox.task = .ended (.error cause) ↔ ∃ last fault,
        d.stream.answers.getLast? = some last ∧ last.failure? = some fault ∧
          cause = .stream fault) ∧
      ∀ result, d.outbox.task = .ended result → ∀ more,
        (d.run stream more).stream = d.stream ∧
          (d.run stream more).outbox.task = .ended result := by
  intro start d
  have h : d.InOrder := (InOrder.empty made world).run modest moves
  have hfirst : start.outbox.channel.senders = 1 := by
    obtain ⟨channel, hchannel, ho⟩ := Option.map_eq_some_iff.mp made
    rw [Channel.eq_of_ofCapacity? hchannel] at ho
    show o.channel.senders = 1
    rw [← ho]
  have hhandles := senders_run modest start moves
  rw [hfirst] at hhandles
  obtain ⟨lost, hbytes, hlost⟩ := h.accounted
  have hall : (∀ cause, d.outbox.task ≠ .ended (.error cause)) →
      d.accepted.flatten = d.stream.taken ++ d.outbox.unwritten := fun going => by
    rw [hbytes, hlost going, List.append_nil]
  refine ⟨Outbox.step_recorded stream, hhandles, ⟨d.outbox.unwritten ++ lost, ?_⟩, hall, h.batch_le,
    fun batch written phase => h.run_of_writing modest phase, fun hended => ?_,
    h.follows.clean_dropLast, h.follows.failed_iff, fun result => InOrder.run_of_ended modest⟩
  · rw [hbytes, List.append_assoc]
  -- A task that has ended well has nothing left and nobody who could send.
  have hdeserted := h.deserted hended
  have hfollows := h.follows
  rw [hended] at hfollows
  refine ⟨hdeserted, ?_, ?_, hfollows.2⟩
  · cases hwaiting : d.outbox.waiting with
    | nil => rfl
    | cons frame rest =>
      have := h.held (by simp [hwaiting])
      omega
  · rw [hall (by simp [hended])]
    simp [Outbox.unwritten, TaskPhase.unwritten, hended, (h.ended _ hended).2]

theorem modest_scripted : ScriptedStream.stream.Modest := by
  intro slices s n s' h
  simp only [ScriptedStream.stream, ScriptedStream.write] at h
  split at h <;> cases h <;> exact Nat.min_le_right _ _

/-- Three frames by three ways, in one batch: the writes end in a header, then in the next
one, and the stream is not always ready. -/
theorem written_in_order_in_pieces :
    let script : ScriptedStream := { writes := [.atMost 3, .notReady, .atMost 4] }
    let o : Outbox := { channel := { capacity := 2 } }
    let moves : List Outbox.Move :=
      [.offer ⟨⟨1, 2, 42, 2⟩, [7, 8]⟩, .transmit [1, 2, 43, 0], .beginSend ⟨⟨1, 2, 44, 1⟩, [9]⟩,
        .work, .finishSend 0] ++ List.replicate 9 .work ++ [.dropHandle, .work]
    let d := run ScriptedStream.stream ⟨o, ⟨script, []⟩, []⟩ moves
    ScriptedStream.stream.Modest ∧ Outbox.ofCapacity? 2 = some o ∧
      d.outbox.task = .ended (.ok ()) ∧ d.outbox.channel.senders = 0 ∧
      d.stream.answers.map StreamAnswer.taken =
        [[1, 2, 42], [], [2, 7, 8, 1], [2, 43, 0, 1, 2, 44, 1, 9], []] ∧
      d.stream.taken = d.accepted.flatten := by
  intro script o moves
  have made : Outbox.ofCapacity? 2 = some o := rfl
  obtain ⟨-, -, -, -, -, -, hended, -⟩ :=
    written_in_order modest_scripted made script moves
  have hgood : (run ScriptedStream.stream ⟨o, ⟨script, []⟩, []⟩ moves).outbox.task =
    .ended (.ok ()) := by decide +kernel
  have htakes : (run ScriptedStream.stream ⟨o, ⟨script, []⟩, []⟩ moves).stream.answers.map
      StreamAnswer.taken =
    [[1, 2, 42], [], [2, 7, 8, 1], [2, 43, 0, 1, 2, 44, 1, 9], []] := by decide +kernel
  generalize run ScriptedStream.stream ⟨o, ⟨script, []⟩, []⟩ moves = d at hended hgood htakes ⊢
  obtain ⟨hsenders, -, htaken, -⟩ := hended hgood
  exact ⟨modest_scripted, made, hgood, hsenders, htakes, htaken⟩

end Dispatch

end TwoWire
