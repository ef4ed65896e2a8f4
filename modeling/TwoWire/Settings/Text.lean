import TwoWire.Settings
import TwoWire.Text.Record

/-! Settings as JSON text. Reading starts from the defaults and replaces the fields
that the text gives; only a text that is read to its end is checked for values out
of range. Writing gives every field in its fixed order. -/

namespace TwoWire

inductive Setting.Field where
  | payloadBound | filter | broadcast | idleTimeout
deriving DecidableEq

def Setting.field : Setting → Setting.Field
  | payloadBound _ => .payloadBound
  | filter _ => .filter
  | broadcast _ => .broadcast
  | idleTimeout _ => .idleTimeout

def Setting.Field.name : Setting.Field → String
  | payloadBound => "max_data_len"
  | filter => "filter"
  | broadcast => "broadcast_address"
  | idleTimeout => "idle_timeout_ms"

def Setting.Field.all : List Setting.Field :=
  [payloadBound, filter, broadcast, idleTimeout]

def Filter.name : Filter → String
  | everything => "all"
  | addressed => "addressed_to_self"

def Filter.names : List (String × Filter) :=
  [everything, addressed].map fun f => (f.name, f)

/-- Limits of numbers as they are read. -/
def byteLimit : Nat := 255

def wordLimit : Nat := 18446744073709551615

def Setting.Field.read : Setting.Field → Reader Setting
  | payloadBound => fun s => do
    let (n, s) ← readNatural wordLimit s
    return (.payloadBound n.toUInt64, s)
  | filter => fun s => do
    let (f, s) ← readChoice Filter.names s
    return (.filter f, s)
  | broadcast => fun s => do
    let (n, s) ← readOptional (readNatural byteLimit) s
    return (.broadcast (n.map Nat.toUInt8), s)
  | idleTimeout => fun s => do
    let (n, s) ← readOptional (readNatural wordLimit) s
    return (.idleTimeout (n.map Nat.toUInt64), s)

def Setting.valueText : Setting → List Char
  | payloadBound n => decimal n.toNat
  | filter f => '\x22' :: f.name.toList ++ ['\x22']
  | broadcast a => optionalText (fun a => decimal a.toNat) a
  | idleTimeout ms => optionalText (fun ms => decimal ms.toNat) ms

def Setting.text (s : Setting) : List Char :=
  memberText s.field.name s.valueText

namespace Settings

/-- The settings with some of them replaced, one after another. -/
def assignAll (s : Settings) (changes : List Setting) : Settings :=
  changes.foldl assign s

def toList (s : Settings) : List Setting :=
  [.payloadBound s.payloadBound, .filter s.filter, .broadcast s.broadcast,
    .idleTimeout s.idleTimeout]

def shape : RecordShape Setting.Field Setting where
  fields := Setting.Field.all.map fun f => (f.name, f)
  value := Setting.Field.read

def readUnchecked (text : List Char) : Except TextFault (Settings × List Char) := do
  let (given, rest) ← shape.read text
  return (({} : Settings).assignAll (given.map Prod.snd), rest)

def ofJson (text : String) : Except BusError Settings :=
  let reading : Except TextFault Settings := do
    let (s, rest) ← readUnchecked text.toList
    expectEnd rest
    return s
  match reading with
  | .error fault => .error (.settingsText fault)
  | .ok s =>
    match s.check with
    | .error fault => .error (.badParam fault)
    | .ok () => .ok s

/-- The text of some settings, each as a member of one object. -/
def jsonOf (given : List Setting) : String :=
  String.ofList (objectText (given.map Setting.text))

def toJson (s : Settings) : String :=
  jsonOf s.toList

@[simp] theorem assignAll_toList (s t : Settings) : s.assignAll t.toList = t := rfl

end Settings

end TwoWire
