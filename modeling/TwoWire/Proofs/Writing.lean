import TwoWire.Outbox.Task

/-! What is asked of a stream, kept beside it, and what one step of the task that
writes comes to. The bytes offered are always the rest of the batch, wherever the last
write ended. -/

namespace TwoWire

namespace Outgoing

theorem length_flatMap_bytes (frames : List Outgoing) :
    (frames.flatMap Outgoing.bytes).length = totalSize frames := by
  induction frames with
  | nil => rfl
  | cons o rest ih =>
    rw [List.flatMap_cons, List.length_append, ih, length_bytes]
    rfl

/-- The slices hold what follows the bytes skipped, whatever they cut. -/
theorem flatten_slicesFrom (skip : Nat) (frames : List Outgoing) :
    (slicesFrom skip frames).flatten = (frames.flatMap Outgoing.bytes).drop skip := by
  induction frames generalizing skip with
  | nil => simp [slicesFrom]
  | cons o rest ih =>
    have hheader : (if skip < headerSize then [o.header.bytes.drop skip] else []).flatten =
        o.header.bytes.drop skip := by
      split
      · simp
      · rw [List.drop_eq_nil_of_le (by rw [Header.length_bytes]; omega)]
        rfl
    have hpayload : (if !o.payload.isEmpty && skip < o.size then
        [o.payload.drop (skip - headerSize)] else []).flatten =
          o.payload.drop (skip - headerSize) := by
      split
      · simp
      · rename_i hnone
        have hle : o.payload.length ≤ skip - headerSize := by
          cases hp : o.payload with
          | nil => simp
          | cons byte more =>
            simp only [hp, size, List.isEmpty_cons, Bool.not_false, Bool.true_and,
              decide_eq_true_eq, List.length_cons] at hnone ⊢
            omega
        rw [List.drop_eq_nil_of_le hle]
        rfl
    rw [slicesFrom, List.flatten_append, List.flatten_append, hheader, hpayload, ih,
      List.flatMap_cons, List.drop_append, length_bytes, bytes, List.drop_append,
      Header.length_bytes]

/-- A frame that is taken as it is encoded is written as it came. -/
theorem bytes_of_ofEncoded {frame : Outgoing} {bytes : List UInt8}
    (h : ofEncoded bytes = .ok frame) : frame.bytes = bytes := by
  match bytes with
  | [] | [_] | [_, _] | [_, _, _] => simp [ofEncoded, Header.ofBytes?] at h
  | source :: destination :: opCode :: length :: payload =>
    simp only [ofEncoded, Header.ofBytes?] at h
    split at h
    · cases h
    · split at h
      · cases h
        rfl
      · cases h

end Outgoing

variable {σ : Type}

/-- A stream takes no more than it is offered. -/
def ByteStream.Modest (stream : ByteStream σ) : Prop :=
  ∀ slices world n world', stream.write slices world = (.ready n, world') →
    n ≤ slices.flatten.length

/-- What a stream was asked for and what it said: to take the bytes offered, of which it
takes some from the front, or to see them through. -/
inductive StreamAnswer where
  | write (offered : List UInt8) (answer : Progress Nat)
  | flush (answer : Progress Unit)

namespace StreamAnswer

def taken : StreamAnswer → List UInt8
  | write offered (.ready n) => offered.take n
  | _ => []

/-- The failure in an answer. To take nothing at all is one. -/
def failure? : StreamAnswer → Option StreamError
  | write _ (.ready 0) => some .nothingTaken
  | write _ (.failed cause) => some cause
  | flush (.failed cause) => some cause
  | _ => none

def isDelay : StreamAnswer → Bool
  | write _ .notReady | flush .notReady => true
  | _ => false

end StreamAnswer

structure Recorded (σ : Type) where
  world : σ
  answers : List StreamAnswer := []

namespace Recorded

def note (answer : StreamAnswer) (world : σ) (w : Recorded σ) : Recorded σ :=
  ⟨world, w.answers ++ [answer]⟩

/-- All that the stream has taken so far. -/
def taken (w : Recorded σ) : List UInt8 :=
  w.answers.flatMap StreamAnswer.taken

def delays (w : Recorded σ) : Nat :=
  w.answers.countP StreamAnswer.isDelay

@[simp] theorem taken_note (answer : StreamAnswer) (world : σ) (w : Recorded σ) :
    (w.note answer world).taken = w.taken ++ answer.taken := by
  simp [note, taken]

@[simp] theorem delays_note (answer : StreamAnswer) (world : σ) (w : Recorded σ) :
    (w.note answer world).delays = w.delays + if answer.isDelay then 1 else 0 := by
  simp [note, delays, List.countP_append, List.countP_singleton]

end Recorded

/-- The stream with a record of its answers. -/
def ByteStream.recorded (stream : ByteStream σ) : ByteStream (Recorded σ) where
  write slices w :=
    let (answer, world) := stream.write slices w.world
    (answer, w.note (.write slices.flatten answer) world)
  flush w :=
    let (answer, world) := stream.flush w.world
    (answer, w.note (.flush answer) world)

theorem ByteStream.write_recorded (stream : ByteStream σ) (slices : List (List UInt8))
    (w : Recorded σ) :
    stream.recorded.write slices w =
      let answered := stream.write slices w.world
      (answered.1, w.note (.write slices.flatten answered.1) answered.2) := rfl

theorem ByteStream.flush_recorded (stream : ByteStream σ) (w : Recorded σ) :
    stream.recorded.flush w =
      let answered := stream.flush w.world
      (answered.1, w.note (.flush answered.1) answered.2) := rfl

namespace Outbox

/-- The task does with a recorded stream what it does without the record. -/
theorem step_recorded (stream : ByteStream σ) (o : Outbox) (w : Recorded σ) :
    (o.step stream.recorded w).map (fun (o, w) => (o, w.world)) = o.step stream w.world := by
  cases hphase : o.task with
  | waiting =>
    simp only [step, hphase]
    split <;> rfl
  | gathering batch =>
    simp only [step, hphase]
    split
    · split <;> rfl
    · rfl
  | writing batch written =>
    simp only [step, hphase, ByteStream.write_recorded]
    split
    · generalize stream.write (Outgoing.slicesFrom written batch) w.world = answered
      obtain ⟨n | _ | cause, world⟩ := answered
      · simp only
        split <;> rfl
      · rfl
      · rfl
    · rfl
  | flushing batch =>
    simp only [step, hphase, ByteStream.flush_recorded]
    generalize stream.flush w.world = answered
    obtain ⟨_ | _ | cause, world⟩ := answered <;> rfl
  | ended result => simp only [step, hphase, Option.map_none]

/-- The task rests only while it waits for a frame and when it has ended. -/
theorem resting_of_step {stream : ByteStream σ} {o : Outbox} {world : σ}
    (h : o.step stream world = none) : o.task = .waiting ∨ ∃ result, o.task = .ended result := by
  cases hphase : o.task with
  | waiting => exact .inl rfl
  | ended result => exact .inr ⟨result, rfl⟩
  | gathering batch =>
    simp only [step, hphase] at h
    split at h
    · split at h <;> cases h
    · cases h
  | writing batch written =>
    simp only [step, hphase] at h
    split at h
    · split at h
      · split at h <;> cases h
      · cases h
      · cases h
    · cases h
  | flushing batch =>
    simp only [step, hphase] at h
    split at h <;> cases h

/-- What a step of the task comes to. In a batch are the frames that were queued, the
oldest first; each write is offered what is not yet out. -/
inductive Worked (o : Outbox) (w : Recorded σ) : Outbox → Recorded σ → Prop where
  | first {frame : Outgoing} {rest : List Outgoing} (phase : o.task = .waiting)
      (queued : o.channel.queued = frame :: rest) :
      Worked o w { o with channel.queued := rest, task := .gathering [frame] } w
  | more {batch : List Outgoing} {frame : Outgoing} {rest : List Outgoing}
      (phase : o.task = .gathering batch) (room : batch.length < batchLimit)
      (queued : o.channel.queued = frame :: rest) :
      Worked o w { o with channel.queued := rest, task := .gathering (batch ++ [frame]) } w
  | gathered {batch : List Outgoing} (phase : o.task = .gathering batch)
      (all : batch.length < batchLimit → o.channel.queued = []) :
      Worked o w { o with task := .writing batch 0 } w
  | wrote {batch : List Outgoing} {written n : Nat} {world : σ}
      (phase : o.task = .writing batch written) (some_taken : n ≠ 0)
      (le_left : n ≤ Outgoing.totalSize batch - written) :
      Worked o w { o with task := .writing batch (written + n) }
        (w.note (.write ((batch.flatMap Outgoing.bytes).drop written) (.ready n)) world)
  | written {batch : List Outgoing} {written : Nat} (phase : o.task = .writing batch written)
      (all : Outgoing.totalSize batch ≤ written) : Worked o w { o with task := .flushing batch } w
  | flushed {batch : List Outgoing} {world : σ} (phase : o.task = .flushing batch) :
      Worked o w { o with task := .waiting, pending := o.pending - batch.length }
        (w.note (.flush (.ready ())) world)
  | delayed {answer : StreamAnswer} {world : σ}
      (phase : (∃ batch written, o.task = .writing batch written) ∨
        ∃ batch, o.task = .flushing batch)
      (delay : answer.isDelay = true) (clean : answer.failure? = none) (idle : answer.taken = []) :
      Worked o w o (w.note answer world)
  | failed {answer : StreamAnswer} {cause : StreamError} {world : σ}
      (phase : (∃ batch written, o.task = .writing batch written) ∨
        ∃ batch, o.task = .flushing batch)
      (failure : answer.failure? = some cause) (idle : answer.taken = []) :
      Worked o w (o.finish (.error (.stream cause))) (w.note answer world)
  | finished (phase : o.task = .waiting) (queued : o.channel.queued = [])
      (senders : o.channel.senders = 0) : Worked o w (o.finish (.ok ())) w

section

variable {stream : ByteStream σ} {o o' : Outbox} {w w' : Recorded σ}

theorem worked_of_waiting (hphase : o.task = .waiting)
    (h : o.step stream.recorded w = some (o', w')) : o.Worked w o' w' := by
  cases hqueued : o.channel.queued with
  | nil =>
    by_cases hsenders : o.channel.senders = 0
    · simp only [step, hphase, Channel.take, hqueued, hsenders, ↓reduceIte, Option.some.injEq,
        Prod.mk.injEq] at h
      obtain ⟨rfl, rfl⟩ := h
      exact .finished hphase hqueued hsenders
    · simp [step, hphase, Channel.take, hqueued, hsenders] at h
  | cons frame rest =>
    simp only [step, hphase, Channel.take, hqueued, Option.some.injEq, Prod.mk.injEq] at h
    obtain ⟨rfl, rfl⟩ := h
    exact .first hphase hqueued

theorem worked_of_gathering {batch : List Outgoing} (hphase : o.task = .gathering batch)
    (h : o.step stream.recorded w = some (o', w')) : o.Worked w o' w' := by
  by_cases hroom : batch.length < batchLimit
  · cases hqueued : o.channel.queued with
    | nil =>
      simp only [step, hphase, hroom, Channel.take, hqueued, ↓reduceIte] at h
      split at h
      · rename_i heq
        split at heq <;> cases heq
      · cases h
        exact .gathered hphase fun _ => hqueued
    | cons frame rest =>
      simp only [step, hphase, hroom, Channel.take, hqueued, ↓reduceIte, Option.some.injEq,
        Prod.mk.injEq] at h
      obtain ⟨rfl, rfl⟩ := h
      exact .more hphase hroom hqueued
  · simp only [step, hphase, hroom, ↓reduceIte, Option.some.injEq, Prod.mk.injEq] at h
    obtain ⟨rfl, rfl⟩ := h
    exact .gathered hphase fun room => absurd room hroom

theorem worked_of_writing (modest : stream.Modest) {batch : List Outgoing} {written : Nat}
    (hphase : o.task = .writing batch written)
    (h : o.step stream.recorded w = some (o', w')) : o.Worked w o' w' := by
  by_cases hleft : written < Outgoing.totalSize batch
  · have hslices := Outgoing.flatten_slicesFrom written batch
    have hmodest := modest (Outgoing.slicesFrom written batch) w.world
    simp only [step, hphase, hleft, ↓reduceIte, ByteStream.write_recorded] at h
    rw [hslices] at h hmodest
    generalize stream.write (Outgoing.slicesFrom written batch) w.world = answered at h hmodest
    obtain ⟨n | _ | cause, world⟩ := answered
    · have hle := hmodest n world rfl
      rw [List.length_drop, Outgoing.length_flatMap_bytes] at hle
      -- To take nothing while something is left is a failure, to take anything is progress.
      cases n with
      | zero =>
        cases h
        exact .failed (.inl ⟨batch, written, hphase⟩) rfl rfl
      | succ n =>
        cases h
        exact .wrote hphase (Nat.succ_ne_zero n) hle
    · cases h
      exact .delayed (.inl ⟨batch, written, hphase⟩) rfl rfl rfl
    · cases h
      exact .failed (.inl ⟨batch, written, hphase⟩) rfl rfl
  · simp only [step, hphase, hleft, ↓reduceIte, Option.some.injEq, Prod.mk.injEq] at h
    obtain ⟨rfl, rfl⟩ := h
    exact .written hphase (Nat.le_of_not_lt hleft)

theorem worked_of_flushing {batch : List Outgoing} (hphase : o.task = .flushing batch)
    (h : o.step stream.recorded w = some (o', w')) : o.Worked w o' w' := by
  simp only [step, hphase, ByteStream.flush_recorded] at h
  generalize stream.flush w.world = answered at h
  obtain ⟨_ | _ | cause, world⟩ := answered
  · cases h
    exact .flushed hphase
  · cases h
    exact .delayed (.inr ⟨batch, hphase⟩) rfl rfl rfl
  · cases h
    exact .failed (.inr ⟨batch, hphase⟩) rfl rfl

theorem worked_of_step (modest : stream.Modest) (h : o.step stream.recorded w = some (o', w')) :
    o.Worked w o' w' := by
  cases hphase : o.task with
  | waiting => exact worked_of_waiting hphase h
  | gathering batch => exact worked_of_gathering hphase h
  | writing batch written => exact worked_of_writing modest hphase h
  | flushing batch => exact worked_of_flushing hphase h
  | ended result => simp [step, hphase] at h

end

end Outbox

end TwoWire
