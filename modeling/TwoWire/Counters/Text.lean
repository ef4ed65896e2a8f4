import TwoWire.Counters
import TwoWire.Text.Record

/-! Counters as JSON text. Every counter has to be there. -/

namespace TwoWire

/-- A counter and its value as a member of an object. -/
def Counter.text (c : Counter) (value : UInt64) : List Char :=
  memberText c.name (decimal value.toNat)

namespace Counters

def shape : RecordShape Counter UInt64 where
  fields := Counter.all.map fun c => (c.name, c)
  value _ := fun s => do
    let (n, s) ← readNatural 18446744073709551615 s
    return (n.toUInt64, s)

def ofList? (given : List (Counter × UInt64)) : Option Counters :=
  if Counter.all.all fun c => (given.lookup c).isSome then
    some (ofValues fun c => (given.lookup c).getD 0)
  else none

def ofJson (text : String) : Except TextFault Counters := do
  let (given, rest) ← shape.read text.toList
  match ofList? given with
  | none => .error .unfit
  | some counters =>
    expectEnd rest
    return counters

def toJson (c : Counters) : String :=
  String.ofList (objectText (Counter.all.map fun k => k.text (c.get k)))

end Counters

end TwoWire
