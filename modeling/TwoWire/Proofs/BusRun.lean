import Mathlib.Logic.Function.Basic
import TwoWire.Proofs.LineTraffic

/-! A bus with any number of nodes, each behind a connection of its own, and what can
happen on it in any order. Beside the nodes there is kept what has come of it: the frames
that each has completed, and the log of all handlers and sinks. -/

namespace TwoWire

/-- What is behind a connection: at first nothing, then a node that writes to this
connection and takes what comes into its buffer. -/
structure Member (τ : Type) where
  node : Option (Node (Network τ)) := none
  completed : List Arrival := []

structure Bus (τ : Type) where
  net : Network τ
  members : Nat → Member τ := fun _ => {}
  log : List (Callback Nat (Network τ)) := []

inductive Move (τ : Type) where
  | attach
  /-- Starts the driver of a connection with a buffer of some capacity. -/
  | start (i capacity : Nat)
  /-- Puts a node behind a connection whose driver is started. -/
  | equip (i : Nat) (address : UInt8) (settings : Settings)
      (handler : Option { h : Handler (Network τ) // h.Quiet })
  | send (i : Nat) (p : Packet)
  | sendTo (i : Nat) (destination opCode : UInt8) (payload : List UInt8)
  | drain (i now : Nat)
  | setShorted (on : Bool)

namespace Bus

variable {τ : Type}

def empty (limit : Nat) (rest : τ) : Bus τ :=
  { net := { line := .withTranscript limit, rest } }

def logged (b : Bus τ) : Logged Nat (Network τ) :=
  ⟨b.net, b.log⟩

/-- The bus when a node has acted: what has come of it, the frames that it completed
meanwhile, and what was logged. -/
def acted (i : Nat) (plain : Node (Network τ) × Network τ) (completed : List Arrival)
    (w : Logged Nat (Network τ)) (b : Bus τ) : Bus τ where
  net := plain.2
  members := Function.update b.members i ⟨some plain.1, (b.members i).completed ++ completed⟩
  log := w.log

theorem logged_acted {i : Nat} {plain : Node (Network τ) × Network τ}
    {w : Logged Nat (Network τ)} (h : w.world = plain.2) (completed : List Arrival) (b : Bus τ) :
    (b.acted i plain completed w).logged = w := by
  simp only [acted, logged, ← h]

/-- What a move makes of the bus. A driver is started once, a node is put where a driver
is started and no node is yet, and only a node can send or drain. -/
def step (b : Bus τ) : Move τ → Bus τ
  | .attach => { b with net := b.net.attach.2 }
  | .start i capacity =>
    if (b.net.line.listening i).isSome then b
    else { b with net := (b.net.start i { capacity }).2 }
  | .equip i address settings handler =>
    match b.net.line.listening i, (b.members i).node,
      Node.build (some address) settings (handler.map (·.1)) (some (Network.sink i)) with
    | some _, none, .ok n => { b with members := Function.update b.members i { node := some n } }
    | _, _, _ => b
  | .send i p =>
    match (b.members i).node with
    | none => b
    | some n => b.acted i (n.send p b.net).2 [] ((n.logged i).send p b.logged).2.2
  | .sendTo i destination opCode payload =>
    match (b.members i).node with
    | none => b
    | some n =>
      b.acted i (n.sendTo destination opCode payload b.net).2 []
        ((n.logged i).sendTo destination opCode payload b.logged).2.2
  | .drain i now =>
    match (b.members i).node with
    | none => b
    | some n =>
      let inbox := Network.buffer i
      match n.drain inbox now b.net, (n.logged i).drain (Logged.place.within inbox) now b.logged with
      | some plain, some logged => b.acted i plain.2 (n.frames inbox now b.net) logged.2.2
      | _, _ => b
  | .setShorted on => { b with net := { b.net with line := b.net.line.setShorted on } }

def run (b : Bus τ) (moves : List (Move τ)) : Bus τ :=
  moves.foldl step b

end Bus

end TwoWire
