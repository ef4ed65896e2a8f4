import TwoWire.Bench

/-! Sinks that fail as planned and take note of every frame. -/

namespace TwoWire

structure SinkPlan where
  name : String
  failure : Option BusError := none
  /-- The first call to fail, counted from zero. -/
  first : Nat := 0
  /-- The first call not to fail any more. -/
  last : Option Nat := none
  /-- The only operation whose frames fail. -/
  opCode : Option UInt8 := none

namespace SinkPlan

def verdict (p : SinkPlan) (call : Nat) (frame : List UInt8) : Except BusError Unit :=
  match p.failure with
  | none => .ok ()
  | some cause =>
    if p.first ≤ call && p.last.all (call < ·) && p.opCode.all (some · == frame[2]?) then
      .error cause
    else .ok ()

def sink {σ : Type} (p : SinkPlan) (bench : Place σ Bench) (id : Nat) : Sink σ := fun frame world =>
  let b := bench.get world
  let count := Bench.callCount id
  let result := p.verdict (count.get b) frame
  let b := (count.set (count.get b + 1) b).note (.transmitted p.name frame result.toBool)
  (result, bench.set b world)

def install {σ : Type} (p : SinkPlan) (bench : Place σ Bench) (world : σ) : Sink σ × σ :=
  let (id, world) := bench.run Bench.addSink world
  (p.sink bench id, world)

end SinkPlan

end TwoWire
