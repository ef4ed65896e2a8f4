import TwoWire.Proofs.CallLog

/-! Draining a buffer whose node does not fill it while it handles what it takes. Then
there is an answer, exactly what was buffered is taken, and the frame in progress goes on
as the assembler alone takes these bytes. -/

namespace TwoWire

variable {ι σ : Type}

theorem ByteQueue.pop_of_nil {q : ByteQueue} (h : q.bytes = []) :
    q.pop = (.error .bufferEmpty, q) := by
  simp [pop, h]

theorem ByteQueue.pop_of_cons {q : ByteQueue} {byte : UInt8} {rest : List UInt8}
    (h : q.bytes = byte :: rest) : q.pop = (.ok byte, { q with bytes := rest }) := by
  simp [pop, h]

theorem ByteQueue.bytes_pop (q : ByteQueue) : q.pop.2.bytes = q.bytes.tail := by
  unfold pop
  split <;> simp [*]

/-- The world when the oldest byte of a buffer was taken, if there was one. -/
def Place.popped (inbox : Place σ ByteQueue) (world : σ) : σ :=
  inbox.set (inbox.get world).pop.2 world

namespace Node

/-- The frames that are completed while a buffer is drained. -/
def framesWithin (inbox : Place σ ByteQueue) (now : Nat) : Nat → Node σ → σ → List Arrival
  | 0, _, _ => []
  | looks + 1, n, world =>
    match inbox.run ByteQueue.pop world with
    | (.error _, _) => []
    | (.ok byte, world) =>
      let (_, n', world) := n.receive now byte world
      Assembler.completed [(n.assembler.feed byte).1] ++ framesWithin inbox now looks n' world

def frames (inbox : Place σ ByteQueue) (now : Nat) (n : Node σ) (world : σ) : List Arrival :=
  n.framesWithin inbox now ((inbox.get world).length + 1) world

section

variable {inbox : Place σ ByteQueue} {world : σ} (now looks : Nat) (n : Node σ)

theorem drainWithin_of_nil (h : (inbox.get world).bytes = []) :
    n.drainWithin inbox now (looks + 1) world = some (.ok 0, n, inbox.popped world) := by
  simp only [drainWithin, Place.run, Place.popped, ByteQueue.pop_of_nil h]

theorem drainWithin_of_cons {byte : UInt8} {rest : List UInt8}
    (h : (inbox.get world).bytes = byte :: rest) :
    n.drainWithin inbox now (looks + 1) world =
      let received := n.receive now byte (inbox.popped world)
      (received.2.1.drainWithin inbox now looks received.2.2).map fun (later, n, world) =>
        (firstFailure received.1 (later.map (· + 1)), n, world) := by
  simp only [drainWithin, Place.run, Place.popped, ByteQueue.pop_of_cons h]
  split <;> simp [*]

theorem framesWithin_of_nil (h : (inbox.get world).bytes = []) :
    n.framesWithin inbox now (looks + 1) world = [] := by
  simp only [framesWithin, Place.run, ByteQueue.pop_of_nil h]

theorem framesWithin_of_cons {byte : UInt8} {rest : List UInt8}
    (h : (inbox.get world).bytes = byte :: rest) :
    n.framesWithin inbox now (looks + 1) world =
      let received := n.receive now byte (inbox.popped world)
      Assembler.completed [(n.assembler.feed byte).1] ++
        received.2.1.framesWithin inbox now looks received.2.2 := by
  simp only [framesWithin, Place.run, Place.popped, ByteQueue.pop_of_cons h]

end

/-- A property of the logged world that says what a buffer holds, and is kept by all that
a node does while it drains that buffer. -/
structure Drains (node : ι) (inbox : Place σ ByteQueue) (I : List UInt8 → Logged ι σ → Prop)
    (n : Node σ) : Prop where
  held : ∀ held w, I held w → (inbox.get w.world).bytes = held
  popped : ∀ held w, I held w → I held.tail { w with world := inbox.popped w.world }
  keeps : ∀ held, n.Keeps node (I held)
  note : ∀ held x arrival w, I held w → I held (w.note (.handled node x arrival))

variable {node : ι} {inbox : Place σ ByteQueue} {I : List UInt8 → Logged ι σ → Prop} {n : Node σ}

theorem Drains.receive (h : n.Drains node inbox I) (now : Nat) (byte : UInt8) (world : σ) :
    (n.receive now byte world).2.1.Drains node inbox I := by
  obtain ⟨counters, lastByte, hnode⟩ := receive_node now byte n world
  rw [hnode]
  exact ⟨h.held, h.popped, fun held => ⟨(h.keeps held).sink, (h.keeps held).handler⟩, h.note⟩

theorem Drains.drainWithin [DecidableEq ι] (h : n.Drains node inbox I) (now : Nat) {looks : Nat}
    {held : List UInt8} {w : Logged ι σ} (hw : I held w) (enough : held.length < looks) :
    let fed := n.assembler.feedAll held
    ∃ result counters lastByte w',
      let n' := { n with counters, lastByte, assembler := fed.2 }
      n.drainWithin inbox now looks w.world = some (result, n', w'.world) ∧
        (n.logged node).drainWithin (Logged.place.within inbox) now looks w =
          some (result, n'.logged node, w') ∧
        n.framesWithin inbox now looks w.world = Assembler.completed fed.1 ∧ I [] w' ∧
        handled node w'.log =
          handled node w.log ++ ((Assembler.completed fed.1).filter n.handles).map n.call := by
  induction looks generalizing n held w with
  | zero => omega
  | succ looks ih =>
    have hheld := h.held held w hw
    have hlheld : ((Logged.place.within inbox).get w).bytes = held := hheld
    have hpopped := h.popped held w hw
    cases held with
    | nil =>
      rw [drainWithin_of_nil now looks n hheld, drainWithin_of_nil now looks (n.logged node) hlheld,
        framesWithin_of_nil now looks n hheld]
      exact ⟨.ok 0, n.counters, n.lastByte, { w with world := inbox.popped w.world }, rfl, rfl, rfl,
        hpopped, (List.append_nil _).symm⟩
    | cons byte rest =>
      -- When the byte is handled the buffer still holds the rest, so a drain of that follows.
      let w₁ : Logged ι σ := { w with world := inbox.popped w.world }
      have herases := erases_receive node now byte n w₁
      have hreceived := handled_receive node now byte n w₁
      have hnext := (h.keeps rest).receive (h.note rest) now byte hpopped
      obtain ⟨later, counters, lastByte, w', hplain, hlogged, hframes, hI, hhandled⟩ :=
        ih (h.receive now byte w₁.world) hnext (by simpa using enough)
      obtain ⟨counters', lastByte', hnode⟩ := receive_node now byte n w₁.world
      have hcompleted := Assembler.completed_cons (n.assembler.feed byte).1
        ((n.assembler.feed byte).2.feedAll rest).1
      rw [drainWithin_of_cons now looks n hheld, drainWithin_of_cons now looks (n.logged node) hlheld,
        framesWithin_of_cons now looks n hheld]
      rw [herases.world] at hplain hframes
      rw [← herases.node] at hlogged
      refine ⟨firstFailure (n.receive now byte w₁.world).1 (later.map (· + 1)), counters, lastByte,
        w', ?_, ?_, ?_, hI, ?_⟩
      · simp only [w₁] at hplain ⊢
        rw [hplain, hnode]
        rfl
      · change Option.map _ (((n.logged node).receive now byte w₁).2.1.drainWithin _ now looks
          ((n.logged node).receive now byte w₁).2.2) = _
        rw [hlogged, hnode, Option.map_some]
        exact congrArg (fun result => some (firstFailure result _, _)) herases.result
      · simp only [w₁] at hframes ⊢
        rw [hframes, hnode]
        exact hcompleted.symm
      · simp only [Assembler.feedAll, hcompleted]
        rw [hhandled, hreceived, hnode, List.filter_append, List.map_append, List.append_assoc]
        rfl

theorem Drains.drain [DecidableEq ι] (h : n.Drains node inbox I) (now : Nat) {held : List UInt8}
    {w : Logged ι σ} (hw : I held w) :
    let fed := n.assembler.feedAll held
    ∃ result counters lastByte w',
      let n' := { n with counters, lastByte, assembler := fed.2 }
      n.drain inbox now w.world = some (result, n', w'.world) ∧
        (n.logged node).drain (Logged.place.within inbox) now w =
          some (result, n'.logged node, w') ∧
        n.frames inbox now w.world = Assembler.completed fed.1 ∧ I [] w' ∧
        handled node w'.log =
          handled node w.log ++ ((Assembler.completed fed.1).filter n.handles).map n.call := by
  have enough : held.length < (inbox.get w.world).length + 1 := by
    rw [ByteQueue.length, h.held held w hw]
    omega
  exact h.drainWithin now hw enough

end Node

end TwoWire
