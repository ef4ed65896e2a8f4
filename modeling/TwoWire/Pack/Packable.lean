import TwoWire.Error
import TwoWire.Pack.Read
import TwoWire.Pack.Write

/-! Types whose values travel as MessagePack. Reading looks at the value alone: in
which form a number or a length was written makes no difference. -/

namespace TwoWire

class Packable (α : Type) where
  pack : α → PackValue
  unpack? : PackValue → Option α

export Packable (pack unpack?)

def packed {α : Type} [Packable α] (a : α) : Except BusError (List UInt8) :=
  (pack a).write

/-- The value at the front of some bytes; those behind it are ignored. -/
def unpacked {α : Type} [Packable α] (bytes : List UInt8) : Except BusError α :=
  match (PackValue.read bytes).bind fun (v, _) => unpack? v with
  | some a => .ok a
  | none => .error .unpackFailed

namespace PackValue

/-- A number of either sign class, if it lies within limits. -/
def intWithin? (low high : Int) (v : PackValue) : Option Int :=
  v.int?.filter fun n => low ≤ n && n ≤ high

def natWithin? (high : Nat) (v : PackValue) : Option Nat :=
  (v.intWithin? 0 high).map Int.toNat

/-- Bytes where items are wanted: each counts as a number, which names nothing. -/
def ofOctets (bytes : List UInt8) : List PackValue :=
  bytes.map fun b => sint (Int64.ofNat b.toNat)

/-- Bytes as they are or as text. -/
def octets? : PackValue → Option (List UInt8)
  | str utf8 => some utf8
  | bin bytes => some bytes
  | _ => none

mutual

/-- The value in terms that every reader shares: text that is not valid UTF-8
becomes bytes, and extensions have no such form. -/
def plain? : PackValue → Option PackValue
  | str utf8 => some (if (text? utf8).isSome then str utf8 else bin utf8)
  | array items => (plainItems? [] items).map array
  | map entries => (plainEntries? [] entries).map map
  | ext _ _ => none
  | v => some v

/-- The same for items behind those already done, which are kept last first. -/
def plainItems? (done : List PackValue) : List PackValue → Option (List PackValue)
  | [] => some done.reverse
  | item :: items =>
    match item.plain? with
    | none => none
    | some item => plainItems? (item :: done) items

def plainEntries? (done : List (PackValue × PackValue)) :
    List (PackValue × PackValue) → Option (List (PackValue × PackValue))
  | [] => some done.reverse
  | (key, value) :: entries =>
    match key.plain?, value.plain? with
    | some key, some value => plainEntries? ((key, value) :: done) entries
    | _, _ => none

end

/-- The value at the front of some bytes in terms that every reader shares. -/
def readPlain (bytes : List UInt8) : Except BusError PackValue :=
  match (read bytes).bind fun (v, _) => v.plain? with
  | some v => .ok v
  | none => .error .unpackFailed

end PackValue

instance : Packable PackValue := ⟨id, some⟩

instance : Packable UInt8 where
  pack n := .uint n.toUInt64
  unpack? v := (v.natWithin? 0xff).map Nat.toUInt8

instance : Packable UInt16 where
  pack n := .uint n.toUInt64
  unpack? v := (v.natWithin? 0xffff).map Nat.toUInt16

instance : Packable UInt32 where
  pack n := .uint n.toUInt64
  unpack? v := (v.natWithin? 0xffffffff).map Nat.toUInt32

instance : Packable UInt64 where
  pack n := .uint n
  unpack? v := (v.natWithin? 0xffffffffffffffff).map Nat.toUInt64

instance : Packable Int8 where
  pack n := .sint n.toInt64
  unpack? v := (v.intWithin? (-0x80) 0x7f).map Int8.ofInt

instance : Packable Int16 where
  pack n := .sint n.toInt64
  unpack? v := (v.intWithin? (-0x8000) 0x7fff).map Int16.ofInt

instance : Packable Int32 where
  pack n := .sint n.toInt64
  unpack? v := (v.intWithin? (-0x80000000) 0x7fffffff).map Int32.ofInt

instance : Packable Int64 where
  pack n := .sint n
  unpack? v := (v.intWithin? (-0x8000000000000000) 0x7fffffffffffffff).map Int64.ofInt

instance : Packable Bool where
  pack b := .bool b
  unpack?
    | .bool b => some b
    | _ => none

instance : Packable String where
  pack s := .ofString s
  unpack? v := v.octets?.bind PackValue.text?

instance {α : Type} [Packable α] : Packable (Option α) where
  pack
    | none => .nil
    | some a => pack a
  unpack?
    | .nil => some none
    | v => (unpack? v).map some

instance {α : Type} [Packable α] : Packable (List α) where
  pack items := .array (items.map pack)
  unpack?
    | .array items => items.mapM unpack?
    | .bin bytes => (PackValue.ofOctets bytes).mapM unpack?
    | _ => none

/-- The two items of a pair. Of bytes in their place those behind them are ignored. -/
def PackValue.pair? : PackValue → Option (PackValue × PackValue)
  | array [a, b] => some (a, b)
  | bin bytes =>
    match ofOctets bytes with
    | a :: b :: _ => some (a, b)
    | _ => none
  | _ => none

instance {α β : Type} [Packable α] [Packable β] : Packable (α × β) where
  pack p := .array [pack p.1, pack p.2]
  unpack? v := do
    let (a, b) ← v.pair?
    return (← unpack? a, ← unpack? b)

end TwoWire
