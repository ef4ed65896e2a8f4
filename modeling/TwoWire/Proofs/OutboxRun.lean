import TwoWire.Proofs.Writing

/-! An outbox at work: its handles are called and its task takes steps, in any order. Kept
beside it are the bytes of the frames it has accepted, in the order in which it did. -/

namespace TwoWire

variable {σ : Type}

theorem Channel.offer_cases {α : Type} (x : α) (c : Channel α) :
    (c.receiving = true ∧ c.offer x = (.ok (), { c with queued := c.queued ++ [x] })) ∨
      ∃ fault, c.offer x = (.error fault, c) := by
  cases hreceiving : c.receiving with
  | false => exact .inr ⟨.closed, by simp [offer, hreceiving]⟩
  | true =>
    cases hroom : c.hasRoom with
    | false => exact .inr ⟨.full, by simp [offer, hreceiving, hroom]⟩
    | true => exact .inl ⟨rfl, by simp [offer, hreceiving, hroom]⟩

namespace Outbox

/-- What can happen to an outbox: a call of one of its handles, of which a send takes as
long as there is no room or until its caller gives up, or a step of its task. -/
inductive Move where
  | offer (frame : Outgoing)
  | transmit (bytes : List UInt8)
  | beginSend (frame : Outgoing)
  | finishSend (i : Nat)
  | abandonSend (i : Nat)
  | share
  | dropHandle
  | work

def Move.isWork : Move → Bool
  | work => true
  | _ => false

end Outbox

/-- An outbox and its stream, with the frames accepted so far. -/
structure Dispatch (σ : Type) where
  outbox : Outbox
  stream : Recorded σ
  accepted : List (List UInt8) := []

namespace Dispatch

/-- The state after a call that asked to write some bytes. -/
def answered (bytes : List UInt8) (answer : Except BusError Unit × Outbox) (d : Dispatch σ) :
    Dispatch σ :=
  { d with
    outbox := answer.2
    accepted := match answer.1 with
      | .ok () => d.accepted ++ [bytes]
      | .error _ => d.accepted }

/-- What a move makes of it. Only who has a handle can call, and as long as a send waits
its handle is not dropped. -/
def step (stream : ByteStream σ) (d : Dispatch σ) : Outbox.Move → Dispatch σ
  | .offer frame =>
    if d.outbox.channel.senders = 0 then d else d.answered frame.bytes (d.outbox.offer frame)
  | .transmit bytes =>
    if d.outbox.channel.senders = 0 then d else d.answered bytes (d.outbox.transmit bytes)
  | .beginSend frame =>
    if d.outbox.channel.senders = 0 then d else { d with outbox := d.outbox.beginSend frame }
  | .finishSend i =>
    match d.outbox.waiting[i]?, d.outbox.finishSend i with
    | some frame, some answer => d.answered frame.bytes answer
    | _, _ => d
  | .abandonSend i => { d with outbox := d.outbox.abandonSend i }
  | .share => if d.outbox.channel.senders = 0 then d else { d with outbox := d.outbox.share }
  | .dropHandle =>
    if d.outbox.channel.senders = 1 ∧ d.outbox.waiting ≠ [] then d
    else { d with outbox := d.outbox.dropHandle }
  | .work =>
    match d.outbox.step stream.recorded d.stream with
    | none => d
    | some (outbox, answers) => { d with outbox, stream := answers }

def run (stream : ByteStream σ) (d : Dispatch σ) (moves : List Outbox.Move) : Dispatch σ :=
  moves.foldl (step stream) d

/-- What a call of a handle can do. The task and the stream are left alone; a frame that is
accepted is queued last, and only while there is somebody to take it. -/
structure Called (d d' : Dispatch σ) : Prop where
  stream : d'.stream = d.stream
  task : d'.outbox.task = d.outbox.task
  receiving : d'.outbox.channel.receiving = d.outbox.channel.receiving
  queued : (d'.accepted = d.accepted ∧ d'.outbox.channel.queued = d.outbox.channel.queued) ∨
    (d.outbox.channel.receiving = true ∧ ∃ frame : Outgoing,
      d'.accepted = d.accepted ++ [frame.bytes] ∧
        d'.outbox.channel.queued = d.outbox.channel.queued ++ [frame])
  deserted : d.outbox.channel.senders = 0 → d'.outbox.channel.senders = 0
  held : (d.outbox.waiting ≠ [] → 0 < d.outbox.channel.senders) →
    d'.outbox.waiting ≠ [] → 0 < d'.outbox.channel.senders

namespace Called

variable {d : Dispatch σ}

theorem refl (d : Dispatch σ) : d.Called d :=
  ⟨rfl, rfl, rfl, .inl ⟨rfl, rfl⟩, id, id⟩

theorem offer (d : Dispatch σ) (frame : Outgoing) :
    d.Called (d.answered frame.bytes (d.outbox.offer frame)) := by
  rcases d.outbox.channel.offer_cases frame with ⟨hreceiving, hoffer⟩ | ⟨fault, hoffer⟩
  · simp only [Outbox.offer, hoffer, answered]
    exact ⟨rfl, rfl, rfl, .inr ⟨hreceiving, frame, rfl, rfl⟩, id, id⟩
  · simp only [Outbox.offer, hoffer, answered]
    exact ⟨rfl, rfl, rfl, .inl ⟨rfl, rfl⟩, id, id⟩

theorem transmit (d : Dispatch σ) (bytes : List UInt8) :
    d.Called (d.answered bytes (d.outbox.transmit bytes)) := by
  cases hencoded : Outgoing.ofEncoded bytes with
  | error fault =>
    simp only [Outbox.transmit, hencoded, answered]
    exact refl d
  | ok frame =>
    simp only [Outbox.transmit, hencoded]
    rw [← Outgoing.bytes_of_ofEncoded hencoded]
    exact offer d frame

theorem finishSend {i : Nat} {frame : Outgoing} {answer : Except BusError Unit × Outbox}
    (waits : d.outbox.waiting[i]? = some frame) (h : d.outbox.finishSend i = some answer) :
    d.Called (d.answered frame.bytes answer) := by
  have hheld : (d.outbox.waiting ≠ [] → 0 < d.outbox.channel.senders) →
      0 < d.outbox.channel.senders := fun held =>
    held (List.ne_nil_of_mem (List.mem_of_getElem? waits))
  rcases d.outbox.channel.offer_cases frame with ⟨hreceiving, hoffer⟩ | ⟨fault, hoffer⟩
  · simp only [Outbox.finishSend, waits, hoffer, Option.some.injEq] at h
    subst h
    exact ⟨rfl, rfl, rfl, .inr ⟨hreceiving, frame, rfl, rfl⟩, id, fun held _ => hheld held⟩
  · simp only [Outbox.finishSend, waits, hoffer] at h
    cases fault with
    | full => cases h
    | closed =>
      cases h
      exact ⟨rfl, rfl, rfl, .inl ⟨rfl, rfl⟩, id, fun held _ => hheld held⟩

theorem abandonSend (d : Dispatch σ) (i : Nat) :
    d.Called { d with outbox := d.outbox.abandonSend i } := by
  refine ⟨rfl, rfl, rfl, .inl ⟨rfl, rfl⟩, id, fun held hwaiting => held fun hnil => hwaiting ?_⟩
  simp [Outbox.abandonSend, hnil]

theorem dropHandle (h : ¬(d.outbox.channel.senders = 1 ∧ d.outbox.waiting ≠ [])) :
    d.Called { d with outbox := d.outbox.dropHandle } := by
  refine ⟨rfl, rfl, rfl, .inl ⟨rfl, rfl⟩, fun hs => ?_, fun held hwaiting => ?_⟩
  · simp [Outbox.dropHandle, Channel.dropSender, hs]
  · have hpos := held hwaiting
    have hone : d.outbox.channel.senders ≠ 1 := fun hone => h ⟨hone, hwaiting⟩
    simp only [Outbox.dropHandle, Channel.dropSender]
    omega

theorem step (stream : ByteStream σ) (d : Dispatch σ) {move : Outbox.Move}
    (h : move.isWork = false) : d.Called (d.step stream move) := by
  cases move with
  | offer frame =>
    simp only [Dispatch.step]
    split
    · exact refl d
    · exact offer d frame
  | transmit bytes =>
    simp only [Dispatch.step]
    split
    · exact refl d
    · exact transmit d bytes
  | beginSend frame =>
    simp only [Dispatch.step]
    split
    · exact refl d
    · rename_i hsenders
      exact ⟨rfl, rfl, rfl, .inl ⟨rfl, rfl⟩, id, fun _ _ => Nat.pos_of_ne_zero hsenders⟩
  | finishSend i =>
    simp only [Dispatch.step]
    split
    · rename_i waits hfinish
      exact finishSend waits hfinish
    · exact refl d
  | abandonSend i => exact abandonSend d i
  | share =>
    simp only [Dispatch.step]
    split
    · exact refl d
    · rename_i hsenders
      exact ⟨rfl, rfl, rfl, .inl ⟨rfl, rfl⟩, fun hs => absurd hs hsenders,
        fun _ _ => Nat.succ_pos _⟩
  | dropHandle =>
    simp only [Dispatch.step]
    split
    · exact refl d
    · rename_i hfree
      exact dropHandle hfree
  | work => cases h

end Called

/-- A move is a call of a handle, or a step of the task unless the task rests. -/
theorem step_cases {stream : ByteStream σ} (modest : stream.Modest) (d : Dispatch σ)
    (move : Outbox.Move) :
    (move.isWork = false ∧ d.Called (d.step stream move)) ∨
      (move.isWork = true ∧ d.step stream move = d ∧
        (d.outbox.task = .waiting ∨ ∃ result, d.outbox.task = .ended result)) ∨
      (move.isWork = true ∧ ∃ o w, d.outbox.Worked d.stream o w ∧
        d.step stream move = { d with outbox := o, stream := w }) := by
  cases hmove : move.isWork with
  | false => exact .inl ⟨rfl, .step stream d hmove⟩
  | true =>
    right
    cases move with
    | work =>
      cases hstep : d.outbox.step stream.recorded d.stream with
      | none => exact .inl ⟨rfl, by simp only [step, hstep], Outbox.resting_of_step hstep⟩
      | some worked =>
        obtain ⟨o, w⟩ := worked
        exact .inr ⟨rfl, o, w, Outbox.worked_of_step modest hstep, by simp only [step, hstep]⟩
    | offer | transmit | beginSend | finishSend | abandonSend | share | dropHandle => cases hmove

/-- Whether a move adds a handle, for which there has to be one to share. -/
def gains (d : Dispatch σ) : Outbox.Move → Bool
  | .share => d.outbox.channel.senders ≠ 0
  | _ => false

/-- Whether a move takes a handle away. The only one is kept as long as a send waits. -/
def loses (d : Dispatch σ) : Outbox.Move → Bool
  | .dropHandle => d.outbox.channel.senders ≠ 0 ∧
      ¬(d.outbox.channel.senders = 1 ∧ !d.outbox.waiting.isEmpty)
  | _ => false

/-- How many moves of a run are of a kind when they are made. -/
def tally (stream : ByteStream σ) (kind : Dispatch σ → Outbox.Move → Bool) :
    Dispatch σ → List Outbox.Move → Nat
  | _, [] => 0
  | d, move :: rest => (kind d move).toNat + tally stream kind (d.step stream move) rest

theorem senders_offer (frame : Outgoing) (o : Outbox) :
    (o.offer frame).2.channel.senders = o.channel.senders := by
  rcases o.channel.offer_cases frame with ⟨-, hoffer⟩ | ⟨fault, hoffer⟩
  · simp only [Outbox.offer, hoffer]
  · simp only [Outbox.offer, hoffer]

theorem senders_transmit (bytes : List UInt8) (o : Outbox) :
    (o.transmit bytes).2.channel.senders = o.channel.senders := by
  unfold Outbox.transmit
  split
  · rfl
  · exact senders_offer _ o

theorem senders_finishSend {i : Nat} {o : Outbox} {answer : Except BusError Unit × Outbox}
    (h : o.finishSend i = some answer) : answer.2.channel.senders = o.channel.senders := by
  cases hwaits : o.waiting[i]? with
  | none => simp [Outbox.finishSend, hwaits] at h
  | some frame =>
    rcases o.channel.offer_cases frame with ⟨-, hoffer⟩ | ⟨fault, hoffer⟩
    · simp only [Outbox.finishSend, hwaits, hoffer, Option.some.injEq] at h
      rw [← h]
    · simp only [Outbox.finishSend, hwaits, hoffer] at h
      cases fault with
      | full => cases h
      | closed => rw [← Option.some.inj h]

theorem senders_worked {o o' : Outbox} {w w' : Recorded σ} (h : o.Worked w o' w') :
    o'.channel.senders = o.channel.senders := by
  cases h <;> rfl

/-- Handles come and go by the moves that share and drop them, and by no other. -/
theorem senders_step {stream : ByteStream σ} (modest : stream.Modest) (d : Dispatch σ)
    (move : Outbox.Move) :
    (d.step stream move).outbox.channel.senders + (d.loses move).toNat =
      d.outbox.channel.senders + (d.gains move).toNat := by
  cases move with
  | offer frame =>
    simp only [step]
    split
    · rfl
    · exact senders_offer frame d.outbox
  | transmit bytes =>
    simp only [step]
    split
    · rfl
    · exact senders_transmit bytes d.outbox
  | beginSend frame =>
    simp only [step]
    split <;> rfl
  | finishSend i =>
    simp only [step]
    split
    · rename_i hfinish
      exact senders_finishSend hfinish
    · rfl
  | abandonSend i => rfl
  | share =>
    by_cases hnone : d.outbox.channel.senders = 0 <;>
      simp [step, gains, loses, Outbox.share, Channel.addSender, hnone]
  | dropHandle =>
    by_cases hheld : d.outbox.channel.senders = 1 ∧ d.outbox.waiting ≠ []
    · simp [step, gains, loses, hheld]
    · by_cases hnone : d.outbox.channel.senders = 0
      · simp [step, gains, loses, hnone, Outbox.dropHandle, Channel.dropSender]
      · have hloses : d.loses .dropHandle = true :=
          decide_eq_true ⟨hnone, by simpa using hheld⟩
        simp only [step, if_neg hheld, hloses, gains, Outbox.dropHandle, Channel.dropSender,
          Bool.toNat_true, Bool.toNat_false]
        omega
  | work =>
    rcases step_cases modest d .work with ⟨hcall, -⟩ | ⟨-, hsame, -⟩ | ⟨-, o, w, hworked, hstep⟩
    · cases hcall
    · rw [hsame]
      rfl
    · rw [hstep]
      exact senders_worked hworked

theorem senders_run {stream : ByteStream σ} (modest : stream.Modest) (d : Dispatch σ)
    (moves : List Outbox.Move) :
    (d.run stream moves).outbox.channel.senders + tally stream loses d moves =
      d.outbox.channel.senders + tally stream gains d moves := by
  induction moves generalizing d with
  | nil => rfl
  | cons move rest ih =>
    have hstep := senders_step modest d move
    have hrest := ih (d.step stream move)
    have hrun : d.run stream (move :: rest) = (d.step stream move).run stream rest := rfl
    rw [hrun]
    simp only [tally]
    omega

end Dispatch

end TwoWire
