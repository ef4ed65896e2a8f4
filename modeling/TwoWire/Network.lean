import TwoWire.SharedLine

/-! Line drivers on one shared line. Each knows on its own whether it takes its
transmitter to be enabled; the line and the receive buffers are common. Whatever
else handlers and sinks work on lies beside them. -/

namespace TwoWire

structure Network (τ : Type) where
  line : SharedLine := {}
  /-- For each connection, whether its driver takes the transmitter to be enabled. -/
  transmitting : List Bool := []
  rest : τ

namespace Network

variable {τ : Type}

def linePlace : Place (Network τ) SharedLine :=
  ⟨line, fun line n => { n with line }⟩

def restPlace : Place (Network τ) τ :=
  ⟨rest, fun rest n => { n with rest }⟩

def driver (node : Nat) : Place (Network τ) (LineDriver SharedLine) where
  get n := ⟨n.transmitting.getD node false, n.line⟩
  set d n := { n with transmitting := n.transmitting.set node d.transmitting, line := d.hardware }

def buffer (node : Nat) : Place (Network τ) ByteQueue :=
  linePlace.within (SharedLine.buffer node)

def attach (n : Network τ) : Nat × Network τ :=
  let (node, line) := n.line.attach
  (node, { n with line, transmitting := n.transmitting ++ [false] })

/-- Starts the driver of a connection with an empty receive buffer. -/
def start (node : Nat) (buffer : ByteQueue) (n : Network τ) :
    Except LinkError Unit × Network τ :=
  let (result, d) := (SharedLine.phy node).start buffer n.line
  (result, (driver node).set d n)

def stop (node : Nat) (n : Network τ) : Except LinkError Unit × Network τ :=
  let (result, line) := (SharedLine.phy node).stop ((driver node).get n)
  (result, { n with line })

/-- The driver of a connection as the sink of a node. -/
def sink (node : Nat) : Sink (Network τ) :=
  (SharedLine.phy node).sink (driver node)

end Network

end TwoWire
