import TwoWire.Proofs.Listener

/-! What the others send is what a node completes, among any number of nodes that send,
drain and answer in any order. -/

namespace TwoWire

variable {τ : Type}

def Bus.InStep (b : Bus τ) : Prop :=
  ∀ i, (b.members i).InStep i b.logged

namespace Bus.InStep

variable {b : Bus τ}

theorem empty (limit : Nat) (rest : τ) : (Bus.empty limit rest).InStep := by
  intro i
  have hdeaf : (Bus.empty limit rest).logged.world.line.listening i = none := rfl
  refine ⟨fun n hn => ?_, fun _ => rfl, fun _ => ⟨rfl, rfl⟩, rfl, fun _ => ⟨?_, [], rfl, ?_⟩⟩
  · cases hn
  · intro n hn
    cases hn
  · rintro held ⟨q, hq, -⟩
    cases hdeaf.symm.trans hq

theorem attach (h : b.InStep) : ({ b with net := b.net.attach.2 } : Bus τ).InStep := fun i =>
  (h i).congr (Network.listening_attach i b.net) rfl rfl

theorem setShorted (h : b.InStep) (on : Bool) :
    ({ b with net := { b.net with line := b.net.line.setShorted on } } : Bus τ).InStep := fun i =>
  (h i).taps rfl

theorem start (h : b.InStep) {i : Nat} (deaf : b.net.line.listening i = none) (capacity : Nat) :
    ({ b with net := (b.net.start i { capacity }).2 } : Bus τ).InStep := by
  intro j
  rcases Network.listening_start j i { capacity } b.net with hl | ⟨rfl, hl⟩
  · exact (h j).congr hl rfl rfl
  · have hi := h i
    obtain ⟨hvacant, hnone⟩ := hi.deaf deaf
    have hheard : heard i b.log = [] := congrArg (List.map Prod.fst) hnone
    refine ⟨hi.on, hi.vacant, fun hd => ?_, hi.told, fun _ => ⟨?_, [], ?_, ?_⟩⟩
    · cases hl.symm.trans hd
    · intro n hn
      cases hvacant.symm.trans hn
    · rw [hi.vacant hvacant]
      exact hheard
    · rintro held ⟨q, hq, rfl⟩
      cases hl.symm.trans hq
      rfl

theorem equip (h : b.InStep) {i : Nat} {q : ByteQueue} (listens : b.net.line.listening i = some q)
    (vacant : (b.members i).node = none) {address : UInt8} {settings : Settings}
    {handler : Option { h : Handler (Network τ) // h.Quiet }} {n : Node (Network τ)}
    (built : Node.build (some address) settings (handler.map (·.1)) (some (Network.sink i)) = .ok n) :
    ({ b with members := Function.update b.members i { node := some n } } : Bus τ).InStep := by
  intro j
  by_cases hj : j = i
  · subst hj
    obtain ⟨hcheck, rfl⟩ := Node.build_ok built
    have hbound := Settings.bound_of_check hcheck
    simp only [Function.update_self]
    refine (h j).joined vacant ?_ ⟨rfl, ?_, .withBound _, ?_⟩ rfl
    · intro hd
      cases listens.symm.trans hd
    · intro handler' hh
      obtain ⟨⟨_, quiet⟩, -, rfl⟩ := Option.map_eq_some_iff.mp hh
      exact quiet
    · exact Nat.min_eq_left hbound.2
  · simp only [Function.update_of_ne hj]
    exact h j

theorem send (h : b.InStep) {i : Nat} {n : Node (Network τ)} (hn : (b.members i).node = some n)
    (p : Packet) :
    (b.acted i (n.send p b.net).2 [] ((n.logged i).send p b.logged).2.2).InStep := by
  intro j
  have hkeeps : n.Keeps i fun w => (b.members j).InStep j w :=
    ((h i).on n hn).keeps (fun p w hw => hw.sink i p) (fun w net ht hw => hw.taps ht)
  have hafter := hkeeps.send p (h j)
  have hworld : ((n.logged i).send p b.logged).2.2.world = (n.send p b.net).2.2 :=
    (Node.erases_send i p n b.logged).world
  rw [logged_acted hworld]
  by_cases hj : j = i
  · subst hj
    obtain ⟨counters, hnode⟩ := Node.send_node p n b.net
    simp only [acted, Function.update_self, hnode]
    exact hafter.counted hn counters
  · simp only [acted, Function.update_of_ne hj]
    exact hafter

theorem listens (h : b.InStep) {i : Nat} {n : Node (Network τ)} (hn : (b.members i).node = some n) :
    ∃ q, b.net.line.listening i = some q := by
  cases hq : b.net.line.listening i with
  | none => cases hn.symm.trans ((h i).deaf hq).1
  | some q => exact ⟨q, rfl⟩

/-- A drain on the bus has an answer, whatever the handler sends meanwhile. It leaves the
buffer empty, and adds nothing to what is heard there. -/
theorem drain (h : b.InStep) {i : Nat} {n : Node (Network τ)} (hn : (b.members i).node = some n)
    (now : Nat) :
    let b' := b.step (.drain i now)
    ∃ result counters lastByte assembler,
      let n' := { n with counters, lastByte, assembler }
      n.drain (Network.buffer i) now b.net = some (result, n', b'.net) ∧
        (b'.members i).node = some n' ∧ Holds i [] b'.logged ∧
        hearings i b'.log = hearings i b.log ∧ b'.InStep := by
  have hon := (h i).on n hn
  obtain ⟨q, hq⟩ := h.listens hn
  have hholds : Holds i q.bytes b.logged := ⟨q, hq, rfl⟩
  obtain ⟨result, counters, lastByte, w', hplain, hlogged, hframes, ⟨hempty, hknown, hothers⟩, htold⟩ :=
    (hon.drains b.members (hearings i b.log)).drain now ⟨hholds, rfl, fun j _ => h j⟩
  let n' := { n with counters, lastByte, assembler := (n.assembler.feedAll q.bytes).2 }
  let completed := Assembler.completed (n.assembler.feedAll q.bytes).1
  have hplain' : n.drain (Network.buffer i) now b.net = some (result, n', w'.world) := hplain
  have hframes' : n.frames (Network.buffer i) now b.net = completed := hframes
  have hstep : b.step (.drain i now) = b.acted i (n', w'.world) completed w' := by
    simp only [Bus.step, hn, hplain', hlogged, hframes']
  -- The node has taken what it held, and the others have only heard what it sent meanwhile.
  have hafter : (b.acted i (n', w'.world) completed w').InStep := by
    intro j
    rw [logged_acted rfl]
    by_cases hj : j = i
    · subst hj
      simp only [acted, Function.update_self]
      exact (h j).drained hn hholds hempty hknown htold counters lastByte
    · simp only [acted, Function.update_of_ne hj]
      exact hothers j fun he => hj he.symm
  simp only [hstep]
  refine ⟨result, counters, lastByte, _, hplain', ?_, ?_, hknown, hafter⟩
  · simp [acted, n']
  · rwa [logged_acted rfl]

theorem step (h : b.InStep) (move : Move τ) : (b.step move).InStep := by
  cases move with
  | attach => exact h.attach
  | start i capacity =>
    simp only [Bus.step]
    split
    · exact h
    · rename_i hdeaf
      exact h.start (by simpa using hdeaf) capacity
  | equip i address settings handler =>
    simp only [Bus.step]
    split
    · rename_i hq hn hbuilt
      exact h.equip hq hn hbuilt
    · exact h
  | send i p =>
    simp only [Bus.step]
    split
    · exact h
    · rename_i n hn
      exact h.send hn p
  | sendTo i destination opCode payload =>
    simp only [Bus.step]
    split
    · exact h
    · rename_i n hn
      exact h.send hn ⟨n.address, destination, opCode, payload⟩
  | drain i now =>
    cases hn : (b.members i).node with
    | none => simpa only [Bus.step, hn] using h
    | some n =>
      obtain ⟨-, -, -, -, -, -, -, -, hafter⟩ := h.drain hn now
      exact hafter
  | setShorted on => exact h.setShorted on

theorem run (h : b.InStep) (moves : List (Move τ)) : (b.run moves).InStep := by
  induction moves generalizing b with
  | nil => exact h
  | cons move rest ih => exact ih (h.step move)

end Bus.InStep

/-- Whether a frame is for a node: everything is, or what names it or is a broadcast. -/
def Node.Wants (n : Node (Network τ)) (arrival : Arrival) : Prop :=
  n.settings.filter = .everything ∨ arrival.header.destination = n.address ∨
    n.settings.broadcast = some arrival.header.destination

instance (n : Node (Network τ)) (arrival : Arrival) : Decidable (n.Wants arrival) :=
  inferInstanceAs (Decidable (_ ∨ _ ∨ _))

theorem Node.handles_eq {n : Node (Network τ)} (h : n.handler.isSome) (arrival : Arrival) :
    n.handles arrival = decide (n.Wants arrival) := by
  cases hf : n.settings.filter with
  | everything => simp [handles, h, accepts, Filter.accepts, Wants, hf]
  | addressed => simp [handles, h, accepts, Filter.accepts, Wants, hf, Bool.decide_or, beq_eq_decide]

theorem Member.InStep.handled_eq {i : Nat} {w : Logged Nat (Network τ)} {m : Member τ}
    (h : m.InStep i w) {n : Node (Network τ)} (hn : m.node = some n) (present : n.handler.isSome) :
    handled i w.log = (m.completed.filter (n.Wants ·)).map n.call := by
  have hwants : n.handles = fun arrival => decide (n.Wants arrival) :=
    funext fun arrival => Node.handles_eq present arrival
  rw [h.told, calls, hn]
  simp only [hwants]

/-- Whatever is done on the bus in whatever order, a node completes what the others put on
the line, each frame once and in order: what it has completed and what is in its buffer make
up the line, and when it drains its buffer it has completed all of it. Its handler is given
those frames that are for the node. -/
theorem Bus.delivered (limit : Nat) (rest : τ) (moves : List (Move τ)) (i : Nat)
    (n : Node (Network τ)) :
    let b := (Bus.empty limit rest).run moves
    (b.members i).node = some n → (b.members i).Spared i b.log →
      (b.members i).completed.flatMap Arrival.bytes ++ ((Network.buffer i).get b.net).bytes =
          (heard i b.log).flatten ∧
        n.assembler.phase = .source ∧
        (n.handler.isSome →
          handled i b.log = ((b.members i).completed.filter (n.Wants ·)).map n.call) ∧
        ∀ now,
          let b' := b.step (.drain i now)
          ∃ result n', n.drain (Network.buffer i) now b.net = some (result, n', b'.net) ∧
            (b'.members i).node = some n' ∧ n'.assembler.phase = .source ∧
            ((Network.buffer i).get b'.net).bytes = [] ∧
            heard i b'.log = heard i b.log ∧
            (b'.members i).completed.map Arrival.bytes = heard i b.log ∧
            (n.handler.isSome →
              handled i b'.log = ((b'.members i).completed.filter (n.Wants ·)).map n.call) := by
  intro b hn spared
  have hb : b.InStep := (InStep.empty limit rest).run moves
  obtain ⟨q, hq⟩ := hb.listens hn
  obtain ⟨hidle, waiting, hheard, hwaiting⟩ := (hb i).caught spared
  refine ⟨?_, hidle n hn, (hb i).handled_eq hn, fun now => ?_⟩
  · have hheld := hwaiting q.bytes ⟨q, hq, rfl⟩
    have hmade : heard i b.log = _ := hheard
    rw [Network.buffer_of_listening hq, hheld, hmade, List.flatten_append, List.flatMap_def]
  · obtain ⟨result, counters, lastByte, assembler, hdrain, hnode, hempty, hknown, hafter⟩ :=
      hb.drain hn now
    have hheard' : heard i (b.step (.drain i now)).log = heard i b.log :=
      congrArg (List.map Prod.fst) hknown
    have hspared : ((b.step (.drain i now)).members i).Spared i (b.step (.drain i now)).log := by
      refine spared.transfer (fun x hx => hknown ▸ hx) fun n' hn' => ?_
      cases hnode.symm.trans hn'
      exact ⟨n, hn, rfl⟩
    obtain ⟨hidle', hcaught⟩ := (hafter i).caught_up hspared hempty
    obtain ⟨q', hq', hnil⟩ := hempty
    have hbuffer : (Network.buffer i).get (b.step (.drain i now)).net = q' :=
      Network.buffer_of_listening hq'
    refine ⟨result, _, hdrain, hnode, hidle' _ hnode, ?_, hheard', hcaught.symm.trans hheard', ?_⟩
    · rw [hbuffer, hnil]
    · intro present
      have htold := (hafter i).handled_eq hnode present
      exact htold

/-- Three nodes, of which one answers all it receives and one comes late. -/
def Bus.threeNodes : List (Move Unit) :=
  let silent : { h : Handler (Network Unit) // h.Quiet } :=
    ⟨fun _ _ => .done (.ok ()), fun _ _ => trivial⟩
  let answering : { h : Handler (Network Unit) // h.Quiet } :=
    ⟨fun x _ => .reply x 90 [7], fun _ _ _ => trivial⟩
  [.attach, .start 0 64, .equip 0 16 {} (some silent), .attach, .start 1 64,
    .equip 1 2 {} (some answering), .sendTo 0 2 42 [1, 2, 3, 4, 5], .attach, .start 2 16,
    .setShorted true, .sendTo 0 2 43 [], .setShorted false, .drain 1 0,
    .equip 2 3 { payloadBound := 4, filter := .addressed, broadcast := some 255 } (some silent),
    .sendTo 0 255 5 [9]]

/-- What was sent before the third node came and while the line was shorted does not reach
it, but the answer sent from inside a drain and the broadcast do. -/
theorem Bus.delivered_threeNodes :
    let b := (Bus.empty 0 ()).run threeNodes
    let b' := b.step (.drain 2 0)
    ∃ n, (b.members 2).node = some n ∧ (b.members 2).Spared 2 b.log ∧
      ((Network.buffer 2).get b'.net).bytes = [] ∧
      (b'.members 2).completed.map Arrival.bytes = [[2, 16, 90, 1, 7], [16, 255, 5, 1, 9]] ∧
      handled 2 b'.log = [(⟨3, 16⟩, ⟨⟨16, 255, 5, 1⟩, [9]⟩)] := by
  have hsome : (((Bus.empty 0 ()).run threeNodes).members 2).node.isSome := by decide +kernel
  have hbound : (((Bus.empty 0 ()).run threeNodes).members 2).node.map (·.settings.payloadBound) =
      some 4 := by decide +kernel
  have hhearings : hearings 2 ((Bus.empty 0 ()).run threeNodes).log =
      [([2, 16, 90, 1, 7], ⟨16, []⟩), ([16, 255, 5, 1, 9], ⟨16, [2, 16, 90, 1, 7]⟩)] := by
    decide +kernel
  obtain ⟨n, hn⟩ := Option.isSome_iff_exists.mp hsome
  have spared : (((Bus.empty 0 ()).run threeNodes).members 2).Spared 2
      ((Bus.empty 0 ()).run threeNodes).log := by
    intro x hx
    rw [hn] at hbound
    have hfour : n.settings.payloadBound = 4 := Option.some.inj hbound
    rw [hhearings] at hx
    have hfits : x.2.length + x.1.length ≤ x.2.capacity ∧ x.1.length ≤ headerSize + 4 := by
      revert x
      decide
    refine ⟨hfits.1, fun n' hn' => ?_⟩
    cases hn.symm.trans hn'
    rw [hfour]
    exact hfits.2
  obtain ⟨-, -, -, hdrains⟩ := delivered 0 () threeNodes 2 n hn spared
  obtain ⟨result, n', -, -, -, hempty, -, hcompleted, -⟩ := hdrains 0
  refine ⟨n, hn, spared, hempty, ?_, by decide +kernel⟩
  rw [hcompleted, heard, hhearings]
  rfl

end TwoWire
