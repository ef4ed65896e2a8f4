import TwoWire.Proofs.PendingCount

/-! What is left of a send that its caller gives up while it waits. The outbox goes on as if
the send had never begun, all but the count: for every such send it stays one too high. -/

namespace TwoWire

variable {σ : Type}

section

variable {α : Type}

/-- The items at the places that are marked. -/
def marked : List Bool → List α → List α
  | true :: marks, x :: xs => x :: marked marks xs
  | false :: marks, _ :: xs => marked marks xs
  | _, _ => []

theorem marked_append {marks : List Bool} {xs : List α} (h : marks.length = xs.length)
    (more : List Bool) (ys : List α) :
    marked (marks ++ more) (xs ++ ys) = marked marks xs ++ marked more ys := by
  induction marks generalizing xs with
  | nil =>
    rw [List.length_eq_zero_iff.mp h.symm]
    rfl
  | cons mark marks ih =>
    cases xs with
    | nil => cases h
    | cons x xs =>
      have hlength : marks.length = xs.length := Nat.succ.inj h
      cases mark with
      | false => exact ih hlength
      | true => exact congrArg (x :: ·) (ih hlength)

theorem length_marked {marks : List Bool} {xs : List α} (h : marks.length = xs.length) :
    (marked marks xs).length = marks.count true := by
  induction marks generalizing xs with
  | nil =>
    rw [List.length_eq_zero_iff.mp h.symm]
    rfl
  | cons mark marks ih =>
    cases xs with
    | nil => cases h
    | cons x xs =>
      have hrest := ih (Nat.succ.inj h)
      cases mark with
      | false => simpa [marked] using hrest
      | true => simpa [marked] using hrest

theorem marked_all (xs : List α) : marked (xs.map fun _ => true) xs = xs := by
  induction xs with
  | nil => rfl
  | cons x xs ih => exact congrArg (x :: ·) ih

/-- Marks for a list, from those for the list without one item. -/
def withMark (mark : Bool) (i : Nat) (marks : List Bool) : List Bool :=
  marks.take i ++ mark :: marks.drop i

section

variable {marks : List Bool} {xs : List α} {i : Nat}

theorem length_withMark (mark : Bool) (i : Nat) (marks : List Bool) :
    (withMark mark i marks).length = marks.length + 1 := by
  have hsplit := congrArg List.length (List.take_append_drop i marks)
  simp only [withMark, List.length_append, List.length_cons] at hsplit ⊢
  omega

theorem count_withMark (b mark : Bool) (i : Nat) (marks : List Bool) :
    (withMark mark i marks).count b = marks.count b + if mark = b then 1 else 0 := by
  have hsplit := congrArg (List.count b) (List.take_append_drop i marks)
  simp only [withMark, List.count_append, List.count_cons, beq_iff_eq] at hsplit ⊢
  omega

theorem length_take_marks (h : marks.length + 1 = xs.length) (hi : i < xs.length) :
    (marks.take i).length = (xs.take i).length := by
  rw [List.length_take, List.length_take]
  omega

theorem marked_eraseIdx (h : marks.length + 1 = xs.length) (hi : i < xs.length) :
    marked marks (xs.eraseIdx i) =
      marked (marks.take i) (xs.take i) ++ marked (marks.drop i) (xs.drop (i + 1)) := by
  have hlength := length_take_marks h hi
  rw [List.eraseIdx_eq_take_drop_succ, ← marked_append hlength, List.take_append_drop]

theorem marked_withMark (h : marks.length + 1 = xs.length) (hi : i < xs.length) (mark : Bool) :
    marked (withMark mark i marks) xs = marked (marks.take i) (xs.take i) ++
      ((if mark then [xs[i]] else []) ++ marked (marks.drop i) (xs.drop (i + 1))) := by
  have hlength := length_take_marks h hi
  have hxs : xs = xs.take i ++ xs[i] :: xs.drop (i + 1) := by
    rw [← List.drop_eq_getElem_cons hi, List.take_append_drop]
  rw [withMark]
  conv => lhs; rw [hxs]
  rw [marked_append hlength]
  cases mark <;> rfl

theorem marked_without (h : marks.length + 1 = xs.length) (hi : i < xs.length) :
    marked (withMark false i marks) xs = marked marks (xs.eraseIdx i) := by
  rw [marked_withMark h hi, marked_eraseIdx h hi]
  rfl

/-- A marked item is found, and taken out, at the place that it has among the marked ones. -/
theorem marked_with (h : marks.length + 1 = xs.length) (hi : i < xs.length) :
    (marked (withMark true i marks) xs)[(marks.take i).count true]? = some xs[i] ∧
      (marked (withMark true i marks) xs).eraseIdx ((marks.take i).count true) =
        marked marks (xs.eraseIdx i) := by
  have hlength := length_take_marks h hi
  rw [marked_withMark h hi, marked_eraseIdx h hi, ← length_marked hlength]
  constructor
  · rw [List.getElem?_append_right (Nat.le_refl _), Nat.sub_self]
    rfl
  · rw [List.eraseIdx_append_of_length_le (Nat.le_refl _), Nat.sub_self]
    rfl

end

end

namespace Outbox

deriving instance DecidableEq for Move

/-- An outbox with another count and other sends that wait. -/
def alter (pending : Nat) (waiting : List Outgoing) (o : Outbox) : Outbox :=
  { o with pending, waiting }

/-- The task cares neither for the count nor for the sends that wait. -/
theorem step_alter (stream : ByteStream σ) (pending : Nat) (waiting : List Outgoing) (o : Outbox)
    (world : σ) :
    (o.alter pending waiting).step stream world = (o.step stream world).map fun (next, world) =>
      (next.alter (pending - (o.task.flushed next.task).length) waiting, world) := by
  cases hphase : o.task with
  | waiting =>
    simp only [step, alter, hphase]
    split <;> rfl
  | gathering batch =>
    simp only [step, alter, hphase]
    split
    · split <;> rfl
    · rfl
  | writing batch written =>
    simp only [step, alter, hphase]
    split
    · generalize stream.write (Outgoing.slicesFrom written batch) world = answered
      obtain ⟨n | _ | cause, after⟩ := answered
      · simp only
        split <;> rfl
      · simp only [Option.map_some, hphase, TaskPhase.flushed_self]
        rfl
      · rfl
    · rfl
  | flushing batch =>
    simp only [step, alter, hphase]
    generalize stream.flush world = answered
    obtain ⟨_ | _ | cause, after⟩ := answered
    · rfl
    · simp only [Option.map_some, hphase, TaskPhase.flushed_self]
      rfl
    · rfl
  | ended result => simp only [step, alter, hphase, Option.map_none]

theorem waiting_of_step {stream : ByteStream σ} {o o' : Outbox} {world world' : σ}
    (h : o.step stream world = some (o', world')) :
    o'.waiting = o.waiting ∧ o'.pending = o.pending - (o.task.flushed o'.task).length := by
  have hsame := step_alter stream o.pending o.waiting o world
  rw [show o.alter o.pending o.waiting = o from rfl, h] at hsame
  have halter : o' = o'.alter (o.pending - (o.task.flushed o'.task).length) o.waiting :=
    congrArg Prod.fst (Option.some.inj hsame)
  exact ⟨(congrArg waiting halter).trans rfl, (congrArg pending halter).trans rfl⟩

theorem lt_of_finishSend {o : Outbox} {i : Nat} (h : (o.finishSend i).isSome) :
    i < o.waiting.length := by
  rcases Nat.lt_or_ge i o.waiting.length with hi | hi
  · exact hi
  · have hnone : o.waiting[i]? = none := List.getElem?_eq_none hi
    simp [finishSend, hnone] at h

/-- A send finishes as the channel is, whatever is counted and whoever else waits. -/
theorem finishSend_alter {o : Outbox} {i : Nat} {frame : Outgoing}
    (waits : o.waiting[i]? = some frame) {waiting : List Outgoing} {j : Nat}
    (found : waiting[j]? = some frame) (pending : Nat) :
    (o.alter pending waiting).finishSend j = (o.finishSend i).map fun (result, next) =>
      (result, next.alter (match result with
        | .ok () => pending
        | .error _ => pending - 1) (waiting.eraseIdx j)) := by
  rcases o.channel.offer_cases frame with ⟨-, hoffer⟩ | ⟨fault, hoffer⟩
  · simp only [finishSend, alter, waits, found, hoffer, Option.map_some]
  · cases fault <;>
      simp only [finishSend, alter, waits, found, hoffer, Option.map_some, Option.map_none]

/-- What it comes to that a send is asked to finish. -/
theorem finishSend_cases {o : Outbox} {i : Nat} {frame : Outgoing}
    (waits : o.waiting[i]? = some frame) :
    (∃ channel, o.finishSend i =
      some (.ok (), { o with channel, waiting := o.waiting.eraseIdx i })) ∨
    (o.finishSend i = some (.error .channelClosed,
      { o with pending := o.pending - 1, waiting := o.waiting.eraseIdx i })) ∨
    o.finishSend i = none := by
  rcases o.channel.offer_cases frame with ⟨-, hoffer⟩ | ⟨fault, hoffer⟩
  · exact .inl ⟨{ o.channel with queued := o.channel.queued ++ [frame] },
      by simp only [finishSend, waits, hoffer]⟩
  · cases fault with
    | closed => exact .inr (.inl (by simp only [finishSend, waits, hoffer]))
    | full => exact .inr (.inr (by simp only [finishSend, waits, hoffer]))

end Outbox

namespace Dispatch

/-- The sends that wait after a move. -/
theorem waiting_step (stream : ByteStream σ) (d : Dispatch σ) (move : Outbox.Move) :
    (d.step stream move).outbox.waiting = match move with
      | .beginSend frame =>
        if d.outbox.channel.senders = 0 then d.outbox.waiting else d.outbox.waiting ++ [frame]
      | .finishSend i =>
        if (d.outbox.finishSend i).isSome then d.outbox.waiting.eraseIdx i else d.outbox.waiting
      | .abandonSend i => d.outbox.waiting.eraseIdx i
      | _ => d.outbox.waiting := by
  cases move with
  | offer frame =>
    simp only [step]
    split
    · rfl
    · rcases d.outbox.channel.offer_cases frame with ⟨-, hoffer⟩ | ⟨fault, hoffer⟩ <;>
        simp only [answered, Outbox.offer, hoffer]
  | transmit bytes =>
    simp only [step]
    split
    · rfl
    · simp only [answered, Outbox.transmit]
      split
      · rfl
      · rename_i frame hframe
        rcases d.outbox.channel.offer_cases frame with ⟨-, hoffer⟩ | ⟨fault, hoffer⟩ <;>
          simp only [Outbox.offer, hoffer]
  | beginSend frame =>
    simp only [step]
    split <;> rfl
  | finishSend i =>
    cases hwaits : d.outbox.waiting[i]? with
    | none => simp only [step, Outbox.finishSend, hwaits, Option.isSome_none, Bool.false_eq_true,
        if_false]
    | some frame =>
      rcases Outbox.finishSend_cases hwaits with ⟨channel, h⟩ | h | h <;>
        simp [step, hwaits, h, answered]
  | abandonSend i => rfl
  | share =>
    simp only [step]
    split <;> rfl
  | dropHandle =>
    simp only [step]
    split <;> rfl
  | work =>
    simp only [step]
    split
    · rfl
    · rename_i hstep
      exact (Outbox.waiting_of_step hstep).1

/-- A dispatch as it would be without the sends that wait at the places that are not marked,
and without others that are lost already: they are neither waiting nor counted. -/
def without (marks : List Bool) (lost : Nat) (d : Dispatch σ) : Dispatch σ :=
  { d with
    outbox := d.outbox.alter (d.outbox.pending - (marks.count false + lost))
      (marked marks d.outbox.waiting) }

/-- Which of the sends that wait are seen through, told before a move from what is told after
it, and what there is of the move for those alone. -/
def sparedMove (marks : List Bool) (d : Dispatch σ) : Outbox.Move → List Bool × List Outbox.Move
  | .beginSend frame =>
    if d.outbox.channel.senders = 0 then (marks, [])
    else (marks.dropLast, if marks.getLast? = some true then [.beginSend frame] else [])
  | .finishSend i =>
    if (d.outbox.finishSend i).isSome then
      (withMark true i marks, [.finishSend ((marks.take i).count true)])
    else (marks, [])
  | .abandonSend i =>
    if i < d.outbox.waiting.length then (withMark false i marks, []) else (marks, [])
  | .dropHandle =>
    if d.outbox.channel.senders = 1 ∧ d.outbox.waiting ≠ [] then (marks, [])
    else (marks, [.dropHandle])
  | move => (marks, [move])

/-- Which of the sends that wait are not given up in a run, and the run without those that
are. -/
def spared (stream : ByteStream σ) : Dispatch σ → List Outbox.Move → List Bool × List Outbox.Move
  | d, [] => (d.outbox.waiting.map fun _ => true, [])
  | d, move :: rest =>
    let later := spared stream (d.step stream move) rest
    let now := d.sparedMove later.1 move
    (now.1, now.2 ++ later.2)

theorem length_sparedMove {stream : ByteStream σ} {d : Dispatch σ} {move : Outbox.Move}
    {marks : List Bool} (h : marks.length = (d.step stream move).outbox.waiting.length) :
    (d.sparedMove marks move).1.length = d.outbox.waiting.length := by
  rw [waiting_step] at h
  cases move with
  | beginSend frame =>
    simp only [sparedMove] at h ⊢
    split
    · rename_i hnone
      rwa [if_pos hnone] at h
    · rename_i hsome
      rw [if_neg hsome, List.length_append, List.length_singleton] at h
      rw [List.length_dropLast, h]
      rfl
  | finishSend i =>
    simp only [sparedMove] at h ⊢
    split
    · rename_i hsome
      have hi := Outbox.lt_of_finishSend hsome
      rw [if_pos hsome, List.length_eraseIdx_of_lt hi] at h
      rw [length_withMark, h]
      omega
    · rename_i hnone
      rwa [if_neg hnone] at h
  | abandonSend i =>
    simp only [sparedMove] at h ⊢
    split
    · rename_i hi
      rw [length_withMark, h, List.length_eraseIdx_of_lt hi]
      omega
    · rename_i hi
      rwa [List.eraseIdx_of_length_le (Nat.le_of_not_lt hi)] at h
  | dropHandle =>
    simp only [sparedMove] at h ⊢
    split <;> exact h
  | offer | transmit | share | work => exact h

theorem length_spared (stream : ByteStream σ) (d : Dispatch σ) (moves : List Outbox.Move) :
    (d.spared stream moves).1.length = d.outbox.waiting.length := by
  induction moves generalizing d with
  | nil => exact List.length_map _
  | cons move rest ih => exact length_sparedMove (ih (d.step stream move))

/-- No send that is begun in the run without the abandoned ones is given up. -/
theorem patient_spared (stream : ByteStream σ) (d : Dispatch σ) (moves : List Outbox.Move)
    (i : Nat) : .abandonSend i ∉ (d.spared stream moves).2 := by
  induction moves generalizing d with
  | nil => exact List.not_mem_nil
  | cons move rest ih =>
    intro hmem
    rcases List.mem_append.mp hmem with hnow | hlater
    · generalize ((d.step stream move).spared stream rest).1 = marks at hnow
      cases move with
      | beginSend frame =>
        simp only [sparedMove] at hnow
        split at hnow
        · cases hnow
        · split at hnow <;> simp at hnow
      | finishSend | abandonSend | dropHandle =>
        simp only [sparedMove] at hnow
        split at hnow <;> simp at hnow
      | offer | transmit | share | work => simp [sparedMove] at hnow
    · exact ih (d.step stream move) hlater

section

variable {stream : ByteStream σ} {d : Dispatch σ} {marks : List Bool} {lost : Nat}

theorem without_answered (room : marks.count false + lost ≤ d.outbox.pending) (frame : Outgoing)
    (bytes : List UInt8) :
    (d.without marks lost).answered bytes ((d.without marks lost).outbox.offer frame) =
      (d.answered bytes (d.outbox.offer frame)).without marks lost := by
  have hpending : d.outbox.pending - (marks.count false + lost) + 1 =
      d.outbox.pending + 1 - (marks.count false + lost) := by omega
  rcases d.outbox.channel.offer_cases frame with ⟨-, hoffer⟩ | ⟨fault, hoffer⟩
  · simp only [without, Outbox.alter, Outbox.offer, hoffer, answered, hpending]
  · simp only [without, Outbox.alter, Outbox.offer, hoffer, answered, Nat.add_sub_cancel]

theorem without_offer (room : marks.count false + lost ≤ d.outbox.pending) (frame : Outgoing) :
    (d.without marks lost).step stream (.offer frame) =
      (d.step stream (.offer frame)).without marks lost := by
  have hchannel : (d.without marks lost).outbox.channel = d.outbox.channel := rfl
  by_cases hnone : d.outbox.channel.senders = 0
  · simp only [step, hchannel, hnone, if_true]
  · simp only [step, hchannel, hnone, if_false]
    exact without_answered room frame frame.bytes

theorem without_transmit (room : marks.count false + lost ≤ d.outbox.pending)
    (bytes : List UInt8) :
    (d.without marks lost).step stream (.transmit bytes) =
      (d.step stream (.transmit bytes)).without marks lost := by
  have hchannel : (d.without marks lost).outbox.channel = d.outbox.channel := rfl
  by_cases hnone : d.outbox.channel.senders = 0
  · simp only [step, hchannel, hnone, if_true]
  · simp only [step, hchannel, hnone, if_false, Outbox.transmit]
    cases Outgoing.ofEncoded bytes with
    | error fault => rfl
    | ok frame => exact without_answered room frame bytes

theorem without_share : (d.without marks lost).step stream .share =
    (d.step stream .share).without marks lost := by
  have hchannel : (d.without marks lost).outbox.channel = d.outbox.channel := rfl
  by_cases hnone : d.outbox.channel.senders = 0
  · simp only [step, hchannel, hnone, if_true]
  · simp only [step, hchannel, hnone, if_false]
    rfl

theorem without_beginSend (hsenders : d.outbox.channel.senders ≠ 0) {mark : Bool}
    (h : marks.length = d.outbox.waiting.length)
    (room : marks.count false + lost ≤ d.outbox.pending) (frame : Outgoing) :
    (d.without marks lost).run stream (if mark then [.beginSend frame] else []) =
      (d.step stream (.beginSend frame)).without (marks ++ [mark]) lost := by
  have hwaiting := marked_append h [mark] [frame]
  simp only [step, hsenders, if_false]
  cases mark with
  | true =>
    have hcount : (marks ++ [true]).count false = marks.count false := by simp
    have hpending : d.outbox.pending - (marks.count false + lost) + 1 =
      d.outbox.pending + 1 - (marks.count false + lost) := by omega
    simp only [if_true, run, List.foldl_cons, List.foldl_nil, step, without, Outbox.alter,
      Outbox.beginSend, hsenders, if_false, hcount, hpending, hwaiting, marked]
  | false =>
    have hcount : (marks ++ [false]).count false = marks.count false + 1 := by simp
    have hpending : d.outbox.pending + 1 - (marks.count false + 1 + lost) =
      d.outbox.pending - (marks.count false + lost) := by omega
    simp only [Bool.false_eq_true, if_false, run, List.foldl_nil, without, Outbox.alter,
      Outbox.beginSend, hcount, hpending, hwaiting, marked, List.append_nil]

theorem without_finishSend {i : Nat} (hsome : (d.outbox.finishSend i).isSome)
    (h : marks.length + 1 = d.outbox.waiting.length) :
    (d.without (withMark true i marks) lost).step stream
        (.finishSend ((marks.take i).count true)) =
      (d.step stream (.finishSend i)).without marks lost := by
  have hi := Outbox.lt_of_finishSend hsome
  have hwaits : d.outbox.waiting[i]? = some d.outbox.waiting[i] := List.getElem?_eq_getElem hi
  obtain ⟨hfound, hrest⟩ := marked_with h hi
  have hcount : (withMark true i marks).count false = marks.count false := by
    rw [count_withMark]
    rfl
  have hfinish := Outbox.finishSend_alter hwaits hfound
    (d.outbox.pending - (marks.count false + lost))
  rw [hrest] at hfinish
  rcases Outbox.finishSend_cases hwaits with ⟨channel, h⟩ | h | h
  · rw [h] at hfinish
    simp only [Outbox.alter] at hfinish
    simp only [step, without, Outbox.alter, hcount, hwaits, hfound, hfinish, h, Option.map_some,
      answered]
  · rw [h] at hfinish
    have hpending : d.outbox.pending - (marks.count false + lost) - 1 =
      d.outbox.pending - 1 - (marks.count false + lost) := by omega
    simp only [Outbox.alter] at hfinish
    simp only [step, without, Outbox.alter, hcount, hwaits, hfound, hfinish, h, Option.map_some,
      answered, hpending]
  · simp [h] at hsome

theorem without_abandonSend {i : Nat} (hi : i < d.outbox.waiting.length)
    (h : marks.length + 1 = d.outbox.waiting.length) :
    d.without (withMark false i marks) lost =
      (d.step stream (.abandonSend i)).without marks (lost + 1) := by
  have hcount : (withMark false i marks).count false = marks.count false + 1 := by
    rw [count_withMark]
    rfl
  have hpending : d.outbox.pending - ((withMark false i marks).count false + lost) =
      d.outbox.pending - (marks.count false + (lost + 1)) := by
    rw [hcount]
    omega
  simp only [step, without, Outbox.alter, Outbox.abandonSend, hpending, marked_without h hi]

theorem without_dropHandle
    (free : ¬(d.outbox.channel.senders = 1 ∧ d.outbox.waiting ≠ []))
    (h : marks.length = d.outbox.waiting.length) :
    (d.without marks lost).step stream .dropHandle =
      (d.step stream .dropHandle).without marks lost := by
  have hfree : ¬(d.outbox.channel.senders = 1 ∧ marked marks d.outbox.waiting ≠ []) := by
    rintro ⟨hone, hwaits⟩
    apply free
    refine ⟨hone, fun hnone => hwaits ?_⟩
    rw [hnone]
    cases marks with
    | nil => rfl
    | cons mark marks => cases mark <;> rfl
  simp only [step, without, Outbox.alter, hfree, free, if_false, Outbox.dropHandle]

theorem without_work : (d.without marks lost).step stream .work =
    (d.step stream .work).without marks lost := by
  have hstep := d.outbox.step_alter stream.recorded
    (d.outbox.pending - (marks.count false + lost)) (marked marks d.outbox.waiting) d.stream
  cases hworked : d.outbox.step stream.recorded d.stream with
  | none =>
    rw [hworked] at hstep
    simp only [step, without, hworked, hstep, Option.map_none]
  | some worked =>
    obtain ⟨next, w⟩ := worked
    obtain ⟨hwaiting, hpending⟩ := Outbox.waiting_of_step hworked
    rw [hworked] at hstep
    have hless : d.outbox.pending - (marks.count false + lost) -
          (d.outbox.task.flushed next.task).length =
        next.pending - (marks.count false + lost) := by
      rw [hpending]
      omega
    simp only [step, without, hworked, hstep, Option.map_some, hless, hwaiting]

/-- A move, and what there is of it without the sends that are given up: the outbox without
them goes where the outbox goes. -/
theorem without_step (room : d.outbox.waiting.length + lost ≤ d.outbox.pending)
    {move : Outbox.Move} (h : marks.length = (d.step stream move).outbox.waiting.length) :
    (d.without (d.sparedMove marks move).1 lost).run stream (d.sparedMove marks move).2 =
      (d.step stream move).without marks (lost + d.outbox.abandonedBy move) := by
  have hlength := length_sparedMove h
  have hroom : (d.sparedMove marks move).1.count false + lost ≤ d.outbox.pending := by
    have hle := List.count_le_length (a := false) (l := (d.sparedMove marks move).1)
    omega
  have hwaiting := waiting_step stream d move
  cases move with
  | offer frame => exact without_offer hroom frame
  | transmit bytes => exact without_transmit hroom bytes
  | beginSend frame =>
    by_cases hnone : d.outbox.channel.senders = 0
    · simp only [sparedMove, hnone, if_true, run, List.foldl_nil, step, Outbox.abandonedBy,
        Nat.add_zero]
    · simp only [hnone, if_false] at hwaiting
      rw [hwaiting, List.length_append, List.length_singleton] at h
      -- The last mark says what becomes of the send that begins here.
      obtain ⟨before, mark, rfl⟩ : ∃ before mark, marks = before ++ [mark] := by
        have hsome : marks ≠ [] := List.length_pos_iff.mp (by omega)
        exact ⟨_, _, (List.dropLast_concat_getLast hsome).symm⟩
      simp only [sparedMove, hnone, if_false, List.dropLast_concat, List.getLast?_concat,
        Option.some.injEq] at hroom ⊢
      rw [List.length_append] at h
      exact without_beginSend hnone (Nat.succ.inj h) hroom frame
  | finishSend i =>
    by_cases hsome : (d.outbox.finishSend i).isSome
    · have hi := Outbox.lt_of_finishSend hsome
      simp only [hsome, if_true] at hwaiting
      rw [hwaiting, List.length_eraseIdx_of_lt hi] at h
      simp only [sparedMove, hsome, if_true]
      exact without_finishSend hsome (by omega)
    · have hnone : d.outbox.finishSend i = none := Option.not_isSome_iff_eq_none.mp hsome
      have hstep : d.step stream (.finishSend i) = d := by
        simp only [step, hnone]
        split
        · rename_i hsome'
          cases hsome'
        · rfl
      simp only [sparedMove, hnone, hstep, Option.isSome_none, Bool.false_eq_true, if_false]
      rfl
  | abandonSend i =>
    -- From here on the send counts among those lost, before among those that wait in vain.
    by_cases hi : i < d.outbox.waiting.length
    · simp only at hwaiting
      rw [hwaiting, List.length_eraseIdx_of_lt hi] at h
      simp only [sparedMove, hi, if_true, run, List.foldl_nil, Outbox.abandonedBy]
      exact without_abandonSend hi (by omega)
    · have hstep : d.step stream (.abandonSend i) = d := by
        simp only [step, Outbox.abandonSend, List.eraseIdx_of_length_le (Nat.le_of_not_lt hi)]
      simp only [sparedMove, hi, if_false, run, List.foldl_nil, Outbox.abandonedBy, hstep,
        Nat.add_zero]
  | dropHandle =>
    by_cases held : d.outbox.channel.senders = 1 ∧ d.outbox.waiting ≠ []
    · have hstep : d.step stream .dropHandle = d := if_pos held
      simp only [sparedMove, if_pos held, hstep]
      rfl
    · simp only [sparedMove, held, if_false] at hlength ⊢
      exact without_dropHandle held hlength
  | share => exact without_share
  | work => exact without_work

end

theorem run_append (stream : ByteStream σ) (d : Dispatch σ) (moves more : List Outbox.Move) :
    d.run stream (moves ++ more) = (d.run stream moves).run stream more :=
  List.foldl_append

end Dispatch

namespace Ledger

theorem Counted.room {l : Ledger σ} (h : l.Counted) :
    l.dispatch.outbox.waiting.length + l.abandoned ≤ l.dispatch.outbox.pending := by
  obtain ⟨lost, hframes, -⟩ := h.frames
  have hlength := congrArg List.length hframes
  have hpending := h.pending_eq
  simp only [List.length_map, List.length_append] at hlength
  omega

theorem without_run (stream : ByteStream σ) {l : Ledger σ} (h : l.Counted)
    (moves : List Outbox.Move) :
    (l.dispatch.without (l.dispatch.spared stream moves).1 l.abandoned).run stream
        (l.dispatch.spared stream moves).2 =
      { (l.run stream moves).dispatch with
        outbox.pending :=
          (l.run stream moves).dispatch.outbox.pending - (l.run stream moves).abandoned } := by
  induction moves generalizing l with
  | nil =>
    have hcount : (l.dispatch.outbox.waiting.map fun _ => true).count false = 0 := by
      rw [List.count_eq_zero]
      simp
    simp only [Dispatch.spared, Dispatch.run, run, List.foldl_nil, Dispatch.without, Outbox.alter,
      marked_all, hcount, Nat.zero_add]
  | cons move rest ih =>
    have hmarks := Dispatch.length_spared stream (l.dispatch.step stream move) rest
    have hnow := Dispatch.without_step h.room hmarks
    have hlater := ih (h.step stream move)
    rw [Dispatch.spared, Dispatch.run_append, hnow]
    exact hlater

/-- Sends that are abandoned leave the count behind and nothing else. Take any run, and the
same run without the sends that are given up in it: it ends with the same frames accepted,
queued and in the task's hands, the same sends that wait and the same bytes taken, and its
count is lower by one for each send given up. So the count is never what is on its way, but
that and all that was ever given up. -/
theorem abandoned_stay_counted (stream : ByteStream σ) {capacity : Nat} {o : Outbox}
    (made : Outbox.ofCapacity? capacity = some o) (world : σ) (moves : List Outbox.Move) :
    let start : Dispatch σ := ⟨o, ⟨world, []⟩, []⟩
    let d := start.run stream moves
    let abandoned := (run stream ⟨start, [], 0⟩ moves).abandoned
    let spared := (start.spared stream moves).2
    (∀ i, .abandonSend i ∉ spared) ∧
      start.run stream spared =
        { d with outbox.pending := d.outbox.pending - abandoned } ∧
      d.outbox.pending = (start.run stream spared).outbox.pending + abandoned ∧
      ((∀ cause, d.outbox.task ≠ .ended (.error cause)) →
        d.outbox.pending = d.outbox.channel.queued.length + d.outbox.task.batch.length +
          d.outbox.waiting.length + abandoned) := by
  intro start d abandoned spared
  have hempty : Counted ⟨start, [], 0⟩ := .empty made world
  have h := hempty.run stream moves
  have hdispatch : (run stream ⟨start, [], 0⟩ moves).dispatch = d := dispatch_run _ moves
  have hroom := h.room
  have hgoing := h.pending_of_going
  have hwithout := without_run stream hempty moves
  rw [hdispatch] at hroom hgoing hwithout
  -- Nobody waits at first, so there is nothing to leave out before the first move.
  have hstart : start.without (start.spared stream moves).1 0 = start := by
    obtain ⟨channel, -, rfl⟩ := Option.map_eq_some_iff.mp made
    rw [List.eq_nil_of_length_eq_zero (Dispatch.length_spared stream start moves)]
    rfl
  rw [hstart] at hwithout
  refine ⟨start.patient_spared stream moves, hwithout, ?_, fun going => ?_⟩
  · have hpending : (start.run stream spared).outbox.pending = d.outbox.pending - abandoned :=
      congrArg (·.outbox.pending) hwithout
    have hle : abandoned ≤ d.outbox.pending := Nat.le_trans (Nat.le_add_left _ _) hroom
    omega
  · have hcount := hgoing going
    omega

/-- Two sends wait, of which the first is given up before there is room. -/
theorem abandoned_stay_counted_first :
    let o : Outbox := { channel := { capacity := 1 } }
    let frame (opCode : UInt8) : Outgoing := ⟨⟨1, 2, opCode, 0⟩, []⟩
    let moves : List Outbox.Move := [.offer (frame 1), .beginSend (frame 2), .beginSend (frame 3),
      .abandonSend 0, .work, .finishSend 0]
    let spared : List Outbox.Move :=
      [.offer (frame 1), .beginSend (frame 3), .work, .finishSend 0]
    let d := Dispatch.run ScriptedStream.stream ⟨o, ⟨{}, []⟩, []⟩ moves
    let d' := Dispatch.run ScriptedStream.stream ⟨o, ⟨{}, []⟩, []⟩ spared
    Outbox.ofCapacity? 1 = some o ∧ (∀ cause, d.outbox.task ≠ .ended (.error cause)) ∧
      (Dispatch.spared ScriptedStream.stream ⟨o, ⟨{}, []⟩, []⟩ moves).2 = spared ∧
      d.outbox.channel.queued = [frame 3] ∧ d.outbox.task.batch = [frame 1] ∧
      d.outbox.waiting = [] ∧ d'.outbox.pending = 2 ∧ d.outbox.pending = 3 := by
  intro o frame moves spared
  have made : Outbox.ofCapacity? 1 = some o := rfl
  have hspared : (Dispatch.spared ScriptedStream.stream ⟨o, ⟨{}, []⟩, []⟩ moves).2 =
    spared := by decide +kernel
  have habandoned : (run ScriptedStream.stream ⟨⟨o, ⟨{}, []⟩, []⟩, [], 0⟩ moves).abandoned = 1 := by
    decide +kernel
  have hqueued : (Dispatch.run ScriptedStream.stream ⟨o, ⟨{}, []⟩, []⟩
    moves).outbox.channel.queued = [frame 3] := by decide +kernel
  have hbatch : (Dispatch.run ScriptedStream.stream ⟨o, ⟨{}, []⟩, []⟩
    moves).outbox.task.batch = [frame 1] := by decide +kernel
  have hwaiting : (Dispatch.run ScriptedStream.stream ⟨o, ⟨{}, []⟩, []⟩
    moves).outbox.waiting = [] := by decide +kernel
  obtain ⟨-, -, hsum, hcount⟩ := abandoned_stay_counted ScriptedStream.stream made {} moves
  rw [hspared, habandoned] at hsum
  generalize Dispatch.run ScriptedStream.stream ⟨o, ⟨{}, []⟩, []⟩ moves = d at *
  generalize Dispatch.run ScriptedStream.stream ⟨o, ⟨{}, []⟩, []⟩ spared = d' at *
  have hgoing : ∀ cause, d.outbox.task ≠ .ended (.error cause) := by
    intro cause hended
    rw [hended] at hbatch
    cases hbatch
  have hpending : d.outbox.pending = 3 := by
    rw [hcount hgoing, habandoned, hqueued, hbatch, hwaiting]
    rfl
  have hless : d'.outbox.pending = 2 := by omega
  exact ⟨made, hgoing, hspared, hqueued, hbatch, hwaiting, hless, hpending⟩

/-- The count is not always what is on its way: with one frame in a channel that has room for
one, a send that begins and is given up is still counted. -/
theorem count_of_abandoned :
    ¬ ∀ (capacity : Nat) (o : Outbox), Outbox.ofCapacity? capacity = some o →
      ∀ moves : List Outbox.Move,
        let d := Dispatch.run ScriptedStream.stream ⟨o, ⟨{}, []⟩, []⟩ moves
        (∀ cause, d.outbox.task ≠ .ended (.error cause)) →
          d.outbox.pending = d.outbox.channel.queued.length + d.outbox.task.batch.length +
            d.outbox.waiting.length := by
  intro h
  have hcount := h 1 { channel := { capacity := 1 } } rfl
    [.offer ⟨⟨1, 2, 3, 0⟩, []⟩, .beginSend ⟨⟨1, 2, 4, 0⟩, []⟩, .abandonSend 0]
  have hone : 2 = 1 := hcount nofun
  cases hone

end Ledger

end TwoWire
