import TwoWire.Counters.Text
import TwoWire.Pack.Record

/-! Counters as MessagePack. Every counter has to be there. -/

namespace TwoWire

instance : Packable Counters where
  pack c := .record (Counter.all.map fun k => (k.name, pack (c.get k)))
  unpack? v := do
    let given ← v.fields? (Counter.all.map fun k => (k.name, k))
    let values ← given.mapM fun (k, v) => (unpack? v).map fun n => (k, n)
    Counters.ofList? values

end TwoWire
