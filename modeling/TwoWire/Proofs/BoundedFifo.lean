import TwoWire.Proofs.LinePorts

/-! A receive buffer is a list of bounded length, first in, first out. It is worked on through
any number of handles at once, so what it has taken in and given out is read off the record of
all calls. -/

namespace TwoWire

variable {σ κ : Type}

/-- Handles of one and the same thing: what one of them puts there, every one of them gets. -/
def Place.Shared {α : Type} (handles : κ → Place σ α) : Prop :=
  ∀ a b x s, (handles b).get ((handles a).set x s) = x

namespace ByteQueue

inductive Operation where
  | push (byte : UInt8)
  | pop
  | peek
  /-- Reads into the front of a block of bytes. -/
  | readInto (out : List UInt8)
  | clear

/-- An operation with what it answered; of a clearing, what was lost by it. -/
inductive Record where
  | pushed (byte : UInt8) (answer : Except LinkError Unit)
  | popped (answer : Except LinkError UInt8)
  | peeked (answer : Option UInt8)
  | read (count : Nat) (out : List UInt8)
  | cleared (lost : List UInt8)

namespace Record

/-- The bytes that an operation brought into the queue. -/
def accepted : Record → List UInt8
  | pushed byte (.ok ()) => [byte]
  | _ => []

/-- The bytes that an operation took out of the queue. -/
def removed : Record → List UInt8
  | popped answer => answer.toOption.toList
  | read count out => out.take count
  | cleared lost => lost
  | pushed _ _ | peeked _ => []

end Record

def perform (operation : Operation) (q : ByteQueue) : Record × ByteQueue :=
  match operation with
  | .push byte => ((q.push byte).map (.pushed byte) id)
  | .pop => q.pop.map .popped id
  | .peek => (.peeked q.peek?, q)
  | .readInto out =>
    let (count, out, q) := q.readInto out
    (.read count out, q)
  | .clear => (.cleared q.bytes, q.clear)

def pops : Nat → ByteQueue → List (Except LinkError UInt8) × ByteQueue
  | 0, q => ([], q)
  | n + 1, q =>
    let (answer, q) := q.pop
    let (answers, q) := pops n q
    (answer :: answers, q)

theorem push_eq {q : ByteQueue} (within : q.length ≤ q.capacity) (byte : UInt8) :
    q.push byte =
      if q.length = q.capacity then (.error .bufferFull, q)
      else (.ok (), { q with bytes := q.bytes ++ [byte] }) := by
  by_cases hfull : q.length = q.capacity
  · rw [if_pos hfull, push, isFull, decide_eq_true (Nat.le_of_eq hfull.symm), if_pos rfl]
  · have hroom : ¬ q.capacity ≤ q.length := fun hle => hfull (Nat.le_antisymm within hle)
    rw [if_neg hfull, push, isFull, decide_eq_false hroom, if_neg Bool.false_ne_true]

theorem pops_eq {n : Nat} {q : ByteQueue} (enough : n ≤ q.length) :
    pops n q = ((q.bytes.take n).map .ok, { q with bytes := q.bytes.drop n }) := by
  induction n generalizing q with
  | zero => rfl
  | succ n ih =>
    obtain ⟨capacity, bytes⟩ := q
    cases bytes with
    | nil => cases Nat.not_succ_le_zero n enough
    | cons byte rest =>
      have hrest := ih (q := ⟨capacity, rest⟩) (Nat.le_of_succ_le_succ enough)
      simp only [pops, pop_cons, hrest]
      rfl

/-- Reading into a block is popping, as often as there are bytes and places for them. -/
theorem readInto_eq_pops (out : List UInt8) (q : ByteQueue) :
    let n := min out.length q.length
    ∃ taken, taken.length = n ∧
      q.readInto out = (n, taken ++ out.drop n, (pops n q).2) ∧
      (pops n q).1 = taken.map .ok := by
  intro n
  have hn : n ≤ q.length := Nat.min_le_right _ _
  refine ⟨q.bytes.take n, List.length_take_of_le hn, ?_, ?_⟩
  · rw [pops_eq hn]
    rfl
  · rw [pops_eq hn]

/-- An operation keeps the bytes of the queue in order: what is in it and what comes in is what
goes out and what is left. -/
theorem bytes_perform (operation : Operation) (q : ByteQueue) :
    let (record, after) := perform operation q
    q.bytes ++ record.accepted = record.removed ++ after.bytes := by
  cases operation with
  | push byte =>
    simp only [perform, push]
    by_cases hfull : q.isFull = true
    · simp [hfull, Record.accepted, Record.removed]
    · simp [hfull, Record.accepted, Record.removed]
  | pop =>
    have hpop := q.bytes_eq_pop
    simpa [perform, Record.accepted, Record.removed] using hpop
  | peek => simp [perform, Record.accepted, Record.removed]
  | readInto out =>
    simp [perform, readInto, Record.accepted, Record.removed, length]
  | clear => simp [perform, Record.accepted, Record.removed]

theorem capacity_perform (operation : Operation) (q : ByteQueue) :
    (perform operation q).2.capacity = q.capacity := by
  cases operation with
  | push byte =>
    simp only [perform, push]
    split <;> rfl
  | pop =>
    simp only [perform, pop]
    split <;> rfl
  | peek => rfl
  | readInto out => rfl
  | clear => rfl

theorem length_perform {q : ByteQueue} (within : q.length ≤ q.capacity) (operation : Operation) :
    (perform operation q).2.length ≤ q.capacity := by
  -- Only a push that is taken makes the queue longer.
  cases operation with
  | push byte =>
    simp only [perform, push_eq within]
    by_cases hfull : q.length = q.capacity
    · rw [if_pos hfull]
      exact within
    · rw [if_neg hfull]
      have hlength : (q.bytes ++ [byte]).length = q.length + 1 := List.length_append
      exact Nat.le_trans (Nat.le_of_eq hlength) (Nat.lt_of_le_of_ne within hfull)
  | pop =>
    have hlength : q.pop.2.length ≤ q.length := by
      rw [length, length, bytes_pop, List.length_tail]
      exact Nat.sub_le _ _
    exact Nat.le_trans hlength within
  | peek => exact within
  | readInto out =>
    have hlength : (q.bytes.drop (min out.length q.length)).length ≤ q.length := by
      rw [List.length_drop]
      exact Nat.sub_le _ _
    exact Nat.le_trans hlength within
  | clear => exact Nat.zero_le _

/-- What a queue lives in, with the record of all calls from the first one on. -/
structure Session (σ : Type) where
  world : σ
  records : List Record := []

namespace Session

variable (handles : κ → Place σ ByteQueue)

def step (s : Session σ) (call : κ × Operation) : Session σ :=
  let (record, world) := (handles call.1).run (perform call.2) s.world
  { world, records := s.records ++ [record] }

def run (s : Session σ) (calls : List (κ × Operation)) : Session σ :=
  calls.foldl (step handles) s

/-- Every handle shows the same queue, which holds what was accepted and not yet removed. -/
structure Holds (q : ByteQueue) (s : Session σ) : Prop where
  shown : ∀ a, (handles a).get s.world = q
  within : q.length ≤ q.capacity
  balance : s.records.flatMap (·.accepted) = s.records.flatMap (·.removed) ++ q.bytes

variable {handles} {q : ByteQueue} {s : Session σ}

theorem run_perform (h : s.Holds handles q) (shared : Place.Shared handles) (a b : κ)
    (operation : Operation) :
    let ran := (handles a).run (perform operation) s.world
    ran.1 = (perform operation q).1 ∧ (handles b).get ran.2 = (perform operation q).2 := by
  intro ran
  have hran : ran = ((perform operation q).1, (handles a).set (perform operation q).2 s.world) := by
    simp only [ran, Place.run, h.shown a]
  rw [hran]
  exact ⟨rfl, shared a b _ s.world⟩

theorem Holds.step (h : s.Holds handles q) (shared : Place.Shared handles) (a : κ)
    (operation : Operation) :
    (s.step handles (a, operation)).Holds handles (perform operation q).2 where
  shown b := (run_perform h shared a b operation).2
  within := by
    rw [capacity_perform]
    exact length_perform h.within operation
  balance := by
    have hrecord := (run_perform h shared a a operation).1
    simp only [Session.step, List.flatMap_append, List.flatMap_singleton, hrecord, h.balance,
      List.append_assoc, bytes_perform operation q]

theorem Holds.run (h : s.Holds handles q) (shared : Place.Shared handles)
    (calls : List (κ × Operation)) :
    ∃ q' : ByteQueue, q'.capacity = q.capacity ∧ (s.run handles calls).Holds handles q' := by
  induction calls generalizing s q with
  | nil => exact ⟨q, rfl, h⟩
  | cons call rest ih =>
    obtain ⟨a, operation⟩ := call
    obtain ⟨q', hcapacity, hq'⟩ := ih (h.step shared a operation)
    exact ⟨q', hcapacity.trans (capacity_perform operation q), hq'⟩

end Session

/-- Whatever is done through whatever handles, they show one queue, never longer than its
capacity, and what was accepted is what was removed followed by what is in it. A push is refused
exactly when the queue is full and a pop when it is empty, and then nothing changes; reading into
a block is as many pops as there are bytes and places, and the places behind them stay as they
are. -/
theorem bounded_fifo {handles : κ → Place σ ByteQueue} (shared : Place.Shared handles)
    {capacity : Nat} {world : σ} (fresh : ∀ a, (handles a).get world = { capacity })
    (calls : List (κ × Operation)) :
    let s := Session.run handles { world } calls
    ∃ q : ByteQueue, q.capacity = capacity ∧ q.length ≤ capacity ∧
      (∀ a, (handles a).get s.world = q) ∧
      s.records.flatMap (·.accepted) = s.records.flatMap (·.removed) ++ q.bytes ∧
      (∀ a b operation,
        let ran := (handles a).run (perform operation) s.world
        ran.1 = (perform operation q).1 ∧ (handles b).get ran.2 = (perform operation q).2) ∧
      (∀ byte, q.push byte =
        if q.length = capacity then (.error .bufferFull, q)
        else (.ok (), { q with bytes := q.bytes ++ [byte] })) ∧
      (q.pop.1 = .error .bufferEmpty ↔ q.length = 0) ∧
      (q.length = 0 → q.pop.2 = q) ∧
      (q.length ≠ 0 → ∃ byte, q.pop.1 = .ok byte ∧ q.peek? = some byte ∧
        q.bytes = byte :: q.pop.2.bytes) ∧
      ∀ out,
        let n := min out.length q.length
        ∃ taken, taken.length = n ∧ (pops n q).1 = taken.map .ok ∧
          q.readInto out = (n, taken ++ out.drop n, (pops n q).2) := by
  intro s
  have hfresh : Session.Holds handles { capacity } { world } :=
    ⟨fresh, Nat.zero_le capacity, rfl⟩
  obtain ⟨q, rfl, h⟩ := hfresh.run shared calls
  refine ⟨q, rfl, h.within, h.shown, h.balance, Session.run_perform h shared, push_eq h.within,
    ?_, fun hempty => ?_, fun hfilled => ?_, fun out => ?_⟩
  · cases hbytes : q.bytes with
    | nil => simp [pop_of_nil hbytes, length, hbytes]
    | cons byte rest => simp [pop_of_cons hbytes, length, hbytes]
  · rw [pop_of_nil (List.length_eq_zero_iff.mp hempty)]
  · obtain ⟨byte, rest, hbytes⟩ := List.exists_cons_of_length_pos (Nat.pos_of_ne_zero hfilled)
    refine ⟨byte, ?_⟩
    rw [pop_of_cons hbytes, peek?, hbytes]
    exact ⟨rfl, rfl, rfl⟩
  · obtain ⟨taken, hlength, hread, hpops⟩ := readInto_eq_pops out q
    exact ⟨taken, hlength, hpops, hread⟩

/-- A producer and a consumer of a queue for three bytes, which lies beside something else. -/
theorem bounded_fifo_overfilled :
    let handle : Place (ByteQueue × Nat) ByteQueue := ⟨Prod.fst, fun q world => (q, world.2)⟩
    let handles : Bool → Place (ByteQueue × Nat) ByteQueue := fun _ => handle
    let producer (byte : UInt8) : Bool × Operation := (true, .push byte)
    let calls := [1, 2, 3, 4].map producer ++ [(false, .peek), (false, .readInto [9, 9])] ++
      [5, 6, 7].map producer ++ [(false, .pop), (false, .clear), (false, .pop), (true, .push 8)]
    let s := Session.run handles { world := ({ capacity := 3 }, 0) } calls
    Place.Shared handles ∧ (∀ a, (handles a).get ({ capacity := 3 }, 0) = { capacity := 3 }) ∧
      s.records.flatMap (·.accepted) = [1, 2, 3, 5, 6, 8] ∧
      s.records.flatMap (·.removed) = [1, 2, 3, 5, 6] ∧
      ((handles false).get s.world).bytes = [8] ∧
      ((handles false).get s.world).readInto [0, 0] = (1, [8, 0], { capacity := 3 }) := by
  intro handle handles producer calls
  have shared : Place.Shared handles := fun _ _ _ _ => rfl
  have fresh : ∀ a, (handles a).get (({ capacity := 3 } : ByteQueue), 0) = { capacity := 3 } :=
    fun _ => rfl
  have haccepted : (Session.run handles { world := ({ capacity := 3 }, 0) } calls).records.flatMap
      (·.accepted) = [1, 2, 3, 5, 6, 8] := by decide +kernel
  have hremoved : (Session.run handles { world := ({ capacity := 3 }, 0) } calls).records.flatMap
      (·.removed) = [1, 2, 3, 5, 6] := by decide +kernel
  obtain ⟨q, hcapacity, -, hshown, hbalance, -, -, -, -, -, -⟩ := bounded_fifo shared fresh calls
  have hbytes : q.bytes = [8] := by
    have hleft : [1, 2, 3, 5, 6] ++ [8] = [1, 2, 3, 5, 6] ++ q.bytes := by
      rw [haccepted, hremoved] at hbalance
      exact hbalance
    exact (List.append_cancel_left hleft).symm
  obtain ⟨capacity, bytes⟩ := q
  cases hcapacity
  cases hbytes
  refine ⟨shared, fresh, haccepted, hremoved, congrArg ByteQueue.bytes (hshown false), ?_⟩
  rw [hshown false]
  rfl

end ByteQueue

end TwoWire
