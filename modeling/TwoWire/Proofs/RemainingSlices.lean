import TwoWire.Proofs.OutboxRun

/-! What a batch is offered as after some of it is out: the rest of its bytes in slices none
of which is empty. So the task never finds itself with nothing to offer before it is done,
and a stream that takes what it can never has to take nothing. -/

namespace TwoWire

namespace Outgoing

/-- The slices as they are found by going through the frames once, where `offset` bytes come
before the first of them. -/
def slicesBehind (skip : Nat) : Nat → List Outgoing → List (List UInt8)
  | _, [] => []
  | offset, o :: rest =>
    (if skip < offset + headerSize then [o.header.bytes.drop (skip - offset)] else []) ++
      (if !o.payload.isEmpty && skip < offset + headerSize + o.payload.length then
        [o.payload.drop (skip - (offset + headerSize))] else []) ++
      slicesBehind skip (offset + headerSize + o.payload.length) rest

theorem slicesBehind_eq (skip offset : Nat) (batch : List Outgoing) :
    slicesBehind skip offset batch = slicesFrom (skip - offset) batch := by
  induction batch generalizing offset with
  | nil => rfl
  | cons o rest ih =>
    have hheader : skip < offset + headerSize ↔ skip - offset < headerSize := by
      simp only [headerSize]
      omega
    have hrest : skip - (offset + headerSize + o.payload.length) = skip - offset - o.size := by
      simp only [size]
      omega
    -- An empty payload has no slice, so only a byte that is there can be the next one.
    have hpayload : (!o.payload.isEmpty && skip < offset + headerSize + o.payload.length) =
        (!o.payload.isEmpty && skip - offset < o.size) := by
      cases hp : o.payload with
      | nil => rfl
      | cons byte more =>
        simp only [size, hp, List.isEmpty_cons, List.length_cons, Bool.not_false, Bool.true_and,
          decide_eq_decide]
        omega
    simp only [slicesBehind, slicesFrom, hheader, hpayload, ih, hrest, Nat.sub_add_eq]

theorem ne_nil_of_mem_slicesFrom {skip : Nat} {batch : List Outgoing} {slice : List UInt8}
    (h : slice ∈ slicesFrom skip batch) : slice ≠ [] := by
  induction batch generalizing skip with
  | nil => cases h
  | cons o rest ih =>
    rw [slicesFrom, List.mem_append, List.mem_append] at h
    rcases h with (hheader | hpayload) | hrest
    · by_cases hskip : skip < headerSize
      · rw [if_pos hskip, List.mem_singleton] at hheader
        rw [hheader, Ne, List.drop_eq_nil_iff, Header.length_bytes]
        omega
      · rw [if_neg hskip] at hheader
        cases hheader
    · by_cases hskip : (!o.payload.isEmpty && skip < o.size) = true
      · rw [if_pos hskip, List.mem_singleton] at hpayload
        obtain ⟨hsome, hless⟩ := Bool.and_eq_true_iff.mp hskip
        have hpos : 0 < o.payload.length := by
          rw [Bool.not_eq_true', List.isEmpty_eq_false_iff] at hsome
          exact List.length_pos_iff.mpr hsome
        have hlt : skip < headerSize + o.payload.length := of_decide_eq_true hless
        rw [hpayload, Ne, List.drop_eq_nil_iff]
        omega
      · rw [if_neg hskip] at hpayload
        cases hpayload
    · exact ih hrest

theorem slicesFrom_eq_nil_iff {skip : Nat} {batch : List Outgoing} :
    slicesFrom skip batch = [] ↔ totalSize batch ≤ skip := by
  have hflatten := flatten_slicesFrom skip batch
  have hnil : (slicesFrom skip batch).flatten = [] ↔ totalSize batch ≤ skip := by
    rw [hflatten, List.drop_eq_nil_iff, length_flatMap_bytes]
  rw [← hnil]
  constructor
  · intro h
    rw [h, List.flatten_nil]
  · intro h
    have hempty := List.flatten_eq_nil_iff.mp h
    apply List.eq_nil_iff_forall_not_mem.mpr
    intro slice hmem
    exact ne_nil_of_mem_slicesFrom hmem (hempty slice hmem)

/-- As long as a byte is left there is a first slice, and it has a byte. -/
theorem exists_first_slice {skip : Nat} {batch : List Outgoing} (left : skip < totalSize batch) :
    ∃ first rest, slicesFrom skip batch = first :: rest ∧ first ≠ [] := by
  cases h : slicesFrom skip batch with
  | nil =>
    have hall := slicesFrom_eq_nil_iff.mp h
    omega
  | cons first rest =>
    have hmem : first ∈ slicesFrom skip batch := by rw [h]; exact List.mem_cons_self
    exact ⟨first, rest, rfl, ne_nil_of_mem_slicesFrom hmem⟩

end Outgoing

variable {σ : Type}

/-- A stream that takes at least a byte of a slice that has one. -/
def ByteStream.Willing (stream : ByteStream σ) : Prop :=
  ∀ first rest world, first ≠ [] → (stream.write (first :: rest) world).1 ≠ .ready 0

/-- The stream that takes the first slice that it is offered, and keeps all it took. -/
def ByteStream.plain : ByteStream (List UInt8) where
  write slices taken :=
    let first := slices.headD []
    (.ready first.length, taken ++ first)
  flush taken := (.ready (), taken)

theorem ByteStream.willing_plain : plain.Willing := by
  intro first rest taken hfirst hnone
  have hlength : first.length = 0 := Progress.ready.inj hnone
  exact hfirst (List.eq_nil_of_length_eq_zero hlength)

/-- No answer is to have taken nothing. -/
def Progressing (answers : List StreamAnswer) : Prop :=
  ∀ offered, .write offered (.ready 0) ∉ answers

theorem Progressing.note {answers : List StreamAnswer} {answer : StreamAnswer}
    (h : Progressing answers) (progress : ∀ offered, answer ≠ .write offered (.ready 0)) :
    Progressing (answers ++ [answer]) := by
  intro offered hmem
  rcases List.mem_append.mp hmem with hbefore | hlast
  · exact h offered hbefore
  · exact progress offered (List.mem_singleton.mp hlast).symm

namespace Outbox

/-- The next step of a task that also leaves off writing, and goes on to flush, when it has no
slice to offer. -/
def stepOrBreak (stream : ByteStream σ) (o : Outbox) (world : σ) : Option (Outbox × σ) :=
  match o.task with
  | .writing batch written =>
    if written < Outgoing.totalSize batch ∧ Outgoing.slicesFrom written batch = [] then
      some ({ o with task := .flushing batch }, world)
    else o.step stream world
  | _ => o.step stream world

theorem stepOrBreak_eq (stream : ByteStream σ) (o : Outbox) (world : σ) :
    o.stepOrBreak stream world = o.step stream world := by
  cases hphase : o.task with
  | writing batch written =>
    have hnever : ¬ (written < Outgoing.totalSize batch ∧
        Outgoing.slicesFrom written batch = []) := by
      rw [Outgoing.slicesFrom_eq_nil_iff]
      omega
    simp only [stepOrBreak, hphase, if_neg hnever]
  | waiting | gathering | flushing | ended => simp only [stepOrBreak, hphase]

/-- What a step of writing can be, while there is something left. -/
theorem step_of_left (stream : ByteStream σ) (world : σ) {o : Outbox} {batch : List Outgoing}
    {written : Nat} (phase : o.task = .writing batch written)
    (left : written < Outgoing.totalSize batch) :
    let answered := stream.write (Outgoing.slicesFrom written batch) world
    (∃ n, n ≠ 0 ∧ answered.1 = .ready n ∧
        o.step stream world = some ({ o with task := .writing batch (written + n) }, answered.2)) ∨
      (answered.1 = .notReady ∧ o.step stream world = some (o, answered.2)) ∨
      ∃ cause, o.step stream world = some (o.finish (.error cause), answered.2) := by
  obtain ⟨⟨answer, after⟩, hwrite⟩ :
      ∃ result, stream.write (Outgoing.slicesFrom written batch) world = result := ⟨_, rfl⟩
  simp only [hwrite]
  cases answer with
  | ready n =>
    by_cases hn : n = 0
    · refine .inr (.inr ⟨.stream .nothingTaken, ?_⟩)
      simp only [step, phase, if_pos left, hwrite, if_pos hn]
    · refine .inl ⟨n, hn, rfl, ?_⟩
      simp only [step, phase, if_pos left, hwrite, if_neg hn]
  | notReady =>
    refine .inr (.inl ⟨rfl, ?_⟩)
    simp only [step, phase, if_pos left, hwrite]
  | failed cause =>
    refine .inr (.inr ⟨.stream cause, ?_⟩)
    simp only [step, phase, if_pos left, hwrite]

/-- What a step of the task asks its stream: nothing, to take what is left of a batch that is
not all written, or to see it through. -/
theorem step_asks {stream : ByteStream σ} {o o' : Outbox} {w w' : Recorded σ}
    (h : o.step stream.recorded w = some (o', w')) :
    w'.answers = w.answers ∨
      (∃ batch written, o.task = .writing batch written ∧ written < Outgoing.totalSize batch ∧
        let slices := Outgoing.slicesFrom written batch
        w'.answers = w.answers ++ [.write slices.flatten (stream.write slices w.world).1]) ∨
      ∃ answer, w'.answers = w.answers ++ [.flush answer] := by
  cases hphase : o.task with
  | waiting =>
    simp only [step, hphase] at h
    split at h <;> cases h <;> exact .inl rfl
  | gathering batch =>
    simp only [step, hphase] at h
    split at h
    · split at h <;> cases h <;> exact .inl rfl
    · cases h
      exact .inl rfl
  | writing batch written =>
    by_cases hleft : written < Outgoing.totalSize batch
    · refine .inr (.inl ⟨batch, written, rfl, hleft, ?_⟩)
      rcases step_of_left stream.recorded w hphase hleft with
        ⟨n, -, -, hstep⟩ | ⟨-, hstep⟩ | ⟨cause, hstep⟩ <;> cases hstep.symm.trans h <;> rfl
    · simp only [step, hphase, if_neg hleft] at h
      cases h
      exact .inl rfl
  | flushing batch =>
    right; right
    simp only [step, hphase, ByteStream.flush_recorded] at h
    generalize stream.flush w.world = answered at h
    obtain ⟨_ | _ | cause, world⟩ := answered <;> cases h <;> exact ⟨_, rfl⟩
  | ended result => simp [step, hphase] at h

theorem progressing_of_step {stream : ByteStream σ} {o o' : Outbox} {w w' : Recorded σ}
    (willing : stream.Willing) (h : o.step stream.recorded w = some (o', w'))
    (progress : Progressing w.answers) : Progressing w'.answers := by
  rcases step_asks h with hsame | ⟨batch, written, -, hleft, hwrite⟩ | ⟨answer, hflush⟩
  · rwa [hsame]
  · rw [hwrite]
    obtain ⟨first, rest, hslices, hfirst⟩ := Outgoing.exists_first_slice hleft
    apply progress.note
    intro offered hnone
    have hanswer := (StreamAnswer.write.inj hnone).2
    rw [hslices] at hanswer
    exact willing first rest w.world hfirst hanswer
  · rw [hflush]
    exact progress.note (fun offered => nofun)

end Outbox

theorem Dispatch.progressing_run {stream : ByteStream σ} (willing : stream.Willing)
    {d : Dispatch σ} (progress : Progressing d.stream.answers) (moves : List Outbox.Move) :
    Progressing (d.run stream moves).stream.answers := by
  induction moves generalizing d with
  | nil => exact progress
  | cons move rest ih =>
    apply ih
    cases hmove : move.isWork with
    | false =>
      have hcalled := Called.step stream d hmove
      rwa [hcalled.stream]
    | true =>
      cases move with
      | work =>
        simp only [step]
        split
        · exact progress
        · rename_i hstep
          exact Outbox.progressing_of_step willing hstep progress
      | offer | transmit | beginSend | finishSend | abandonSend | share | dropHandle =>
        cases hmove

namespace Outgoing

/-- The slices that a batch is offered as are what follows the bytes skipped: together they
hold just that, none is empty, and there is none exactly if nothing is left; it does not
matter whether they are found from the front or with an offset that runs along. So a task
that leaves off writing for want of slices is no other task; each turn of writing that goes on
leaves fewer bytes; and a stream that takes at least a byte where there is one never has to
answer that it took nothing, whatever the outbox is asked to do. -/
theorem slices_hold_the_rest (batch : List Outgoing) (skip : Nat) :
    (slicesFrom skip batch).flatten = (batch.flatMap bytes).drop skip ∧
      (∀ slice ∈ slicesFrom skip batch, slice ≠ []) ∧
      (slicesFrom skip batch = [] ↔ totalSize batch ≤ skip) ∧
      slicesBehind skip 0 batch = slicesFrom skip batch ∧
      (∀ (σ : Type) (stream : ByteStream σ) (o : Outbox) (world : σ),
        o.stepOrBreak stream world = o.step stream world ∧
        (o.task = .writing batch skip → skip < totalSize batch →
          ∃ o' world', o.step stream world = some (o', world') ∧
            ∀ batch' written, o'.task = .writing batch' written → batch' = batch ∧
              ((stream.write (slicesFrom skip batch) world).1 = .notReady ∧ written = skip ∨
                totalSize batch - written < totalSize batch - skip))) ∧
      ∀ (σ : Type) (stream : ByteStream σ), stream.Willing →
        ∀ (o : Outbox) (world : σ) (moves : List Outbox.Move) (offered : List UInt8),
          .write offered (.ready 0) ∉
            (Dispatch.run stream ⟨o, ⟨world, []⟩, []⟩ moves).stream.answers := by
  refine ⟨flatten_slicesFrom skip batch, fun slice => ne_nil_of_mem_slicesFrom,
    slicesFrom_eq_nil_iff, slicesBehind_eq skip 0 batch, fun σ stream o world => ?_,
    fun σ stream willing o world moves => ?_⟩
  · refine ⟨o.stepOrBreak_eq stream world, fun phase left => ?_⟩
    rcases Outbox.step_of_left stream world phase left with
      ⟨n, hn, -, hstep⟩ | ⟨hdelay, hstep⟩ | ⟨cause, hstep⟩
    · refine ⟨_, _, hstep, fun batch' written hphase => ?_⟩
      obtain ⟨rfl, rfl⟩ := TaskPhase.writing.inj hphase
      exact ⟨rfl, .inr (by omega)⟩
    · refine ⟨_, _, hstep, fun batch' written hphase => ?_⟩
      obtain ⟨rfl, rfl⟩ := TaskPhase.writing.inj (phase.symm.trans hphase)
      exact ⟨rfl, .inl ⟨hdelay, rfl⟩⟩
    · exact ⟨_, _, hstep, fun batch' written hphase => nomatch hphase⟩
  · exact Dispatch.progressing_run willing (fun offered => List.not_mem_nil) moves

/-- A frame whose length byte says three and whose payload has two bytes, cut behind the first
of them, then an empty one; and both written by a stream that takes one slice at a time. -/
theorem slices_hold_the_rest_cut :
    let batch : List Outgoing := [⟨⟨1, 2, 42, 3⟩, [7, 8]⟩, ⟨⟨1, 2, 43, 0⟩, []⟩]
    let o : Outbox := { channel := { capacity := 2 }, task := .writing batch 5 }
    let start : Outbox := { channel := { capacity := 2 } }
    let moves : List Outbox.Move := batch.map .offer ++ List.replicate 8 .work
    ByteStream.plain.Willing ∧ slicesFrom 5 batch = [[8], [1, 2, 43, 0]] ∧ 5 < totalSize batch ∧
      (slicesFrom 5 batch).flatten = (batch.flatMap bytes).drop 5 ∧
      (∃ o' world', o.step ByteStream.plain [] = some (o', world') ∧
        o'.task = .writing batch 6) ∧
      (Dispatch.run ByteStream.plain ⟨start, ⟨[], []⟩, []⟩ moves).stream.world =
        batch.flatMap bytes ∧
      .write [] (.ready 0) ∉
        (Dispatch.run ByteStream.plain ⟨start, ⟨[], []⟩, []⟩ moves).stream.answers := by
  intro batch o start moves
  have left : 5 < totalSize batch := by decide
  obtain ⟨hflatten, -, -, -, hturn, hwilling⟩ := slices_hold_the_rest batch 5
  obtain ⟨o', world', hstep, -⟩ := (hturn _ ByteStream.plain o []).2 rfl left
  have hnext : o.step ByteStream.plain [] =
    some ({ o with task := .writing batch 6 }, [8]) := rfl
  cases hnext.symm.trans hstep
  have hnone := hwilling _ ByteStream.plain ByteStream.willing_plain start [] moves []
  exact ⟨ByteStream.willing_plain, by decide, left, hflatten, ⟨_, _, hstep, rfl⟩,
    by decide +kernel, hnone⟩

end Outgoing

end TwoWire
