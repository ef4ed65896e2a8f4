import TwoWire.Pack.Record
import TwoWire.Settings.Text

/-! Settings as MessagePack, under the same names as in text. Reading starts from
the defaults and checks nothing but the types of the values. -/

namespace TwoWire

instance : Packable Filter where
  pack f := .ofString f.name
  unpack? := PackValue.choice? Filter.names

def Setting.packed : Setting → PackValue
  | payloadBound bound => pack bound
  | filter f => pack f
  | broadcast address => pack address
  | idleTimeout ms => pack ms

def Setting.Field.unpack? (v : PackValue) : Setting.Field → Option Setting
  | payloadBound => (TwoWire.unpack? v).map .payloadBound
  | filter => (TwoWire.unpack? v).map .filter
  | broadcast => (TwoWire.unpack? v).map .broadcast
  | idleTimeout => (TwoWire.unpack? v).map .idleTimeout

instance : Packable Settings where
  pack s := .record (s.toList.map fun setting => (setting.field.name, setting.packed))
  unpack? v := do
    let given ← v.fields? (Setting.Field.all.map fun f => (f.name, f))
    let changes ← given.mapM fun (f, v) => f.unpack? v
    return ({} : Settings).assignAll changes

end TwoWire
