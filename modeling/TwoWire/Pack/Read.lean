import TwoWire.Pack.Value

/-! Reading MessagePack. Any form of a value is accepted, the shortest or not. How
deep arrays, maps and extensions may be nested is limited. -/

namespace TwoWire

namespace PackValue

def takeBytes (n : Nat) (s : List UInt8) : Option (List UInt8 × List UInt8) :=
  let front := s.take n
  if front.length < n then none else some (front, s.drop n)

def takeNat (width : Nat) (s : List UInt8) : Option (Nat × List UInt8) := do
  let (front, s) ← takeBytes width s
  return (ofBigEndian front, s)

/-- Takes a number of so many bytes in two's complement. -/
def takeInt (width : Nat) (s : List UInt8) : Option (Int × List UInt8) := do
  let (n, s) ← takeNat width s
  let range := Nat.pow 256 width
  return (if 2 * n < range then n else (n : Int) - range, s)

/-- Reads so many items behind those already read, which are kept last first. -/
def readMany {α : Type} (read : List UInt8 → Option (α × List UInt8)) :
    Nat → List α → List UInt8 → Option (List α × List UInt8)
  | 0, seen, s => some (seen.reverse, s)
  | n + 1, seen, s =>
    match read s with
    | none => none
    | some (item, s) => readMany read n (item :: seen) s

def readPair {α : Type} (read : List UInt8 → Option (α × List UInt8)) (s : List UInt8) :
    Option ((α × α) × List UInt8) := do
  let (a, s) ← read s
  let (b, s) ← read s
  return ((a, b), s)

inductive Head where
  | whole (v : PackValue)
  | uint (width : Nat)
  | sint (width : Nat)
  | float32
  | float64
  | str (length : Nat)
  | strOf (width : Nat)
  | binOf (width : Nat)
  | array (length : Nat)
  | arrayOf (width : Nat)
  | map (length : Nat)
  | mapOf (width : Nat)
  | ext (length : Nat)
  | extOf (width : Nat)
  | reserved

def Head.ofByte (b : UInt8) : Head :=
  if b < 0x80 then .whole (.uint b.toUInt64)
  else if b < 0x90 then .map (b &&& 0x0f).toNat
  else if b < 0xa0 then .array (b &&& 0x0f).toNat
  else if b < 0xc0 then .str (b &&& 0x1f).toNat
  else if 0xe0 ≤ b then .whole (.sint (Int64.ofInt ((b.toNat : Int) - 256)))
  else
    match b.toNat with
    | 0xc0 => .whole .nil
    | 0xc2 => .whole (.bool false)
    | 0xc3 => .whole (.bool true)
    | 0xc4 => .binOf 1
    | 0xc5 => .binOf 2
    | 0xc6 => .binOf 4
    | 0xc7 => .extOf 1
    | 0xc8 => .extOf 2
    | 0xc9 => .extOf 4
    | 0xca => .float32
    | 0xcb => .float64
    | 0xcc => .uint 1
    | 0xcd => .uint 2
    | 0xce => .uint 4
    | 0xcf => .uint 8
    | 0xd0 => .sint 1
    | 0xd1 => .sint 2
    | 0xd2 => .sint 4
    | 0xd3 => .sint 8
    | 0xd4 => .ext 1
    | 0xd5 => .ext 2
    | 0xd6 => .ext 4
    | 0xd7 => .ext 8
    | 0xd8 => .ext 16
    | 0xd9 => .strOf 1
    | 0xda => .strOf 2
    | 0xdb => .strOf 4
    | 0xdc => .arrayOf 2
    | 0xdd => .arrayOf 4
    | 0xde => .mapOf 2
    | 0xdf => .mapOf 4
    | _ => .reserved

/-- Reads a value in which containers are nested at most so many levels deep. -/
def readNested (levels : Nat) (s : List UInt8) : Option (PackValue × List UInt8) :=
  match s with
  | [] => none
  | head :: s =>
    match Head.ofByte head with
    | .whole v => some (v, s)
    | .uint width => do
      let (n, s) ← takeNat width s
      return (.uint n.toUInt64, s)
    | .sint width => do
      let (n, s) ← takeInt width s
      return (.sint (Int64.ofInt n), s)
    | .float32 => do
      let (n, s) ← takeNat 4 s
      return (.float32 n.toUInt32, s)
    | .float64 => do
      let (n, s) ← takeNat 8 s
      return (.float64 n.toUInt64, s)
    | .str length => do
      let (bytes, s) ← takeBytes length s
      return (.str bytes, s)
    | .strOf width => do
      let (length, s) ← takeNat width s
      let (bytes, s) ← takeBytes length s
      return (.str bytes, s)
    | .binOf width => do
      let (length, s) ← takeNat width s
      let (bytes, s) ← takeBytes length s
      return (.bin bytes, s)
    | .array length => arrayOf levels length s
    | .arrayOf width => do
      let (length, s) ← takeNat width s
      arrayOf levels length s
    | .map length => mapOf levels length s
    | .mapOf width => do
      let (length, s) ← takeNat width s
      mapOf levels length s
    | .ext length => extOf levels length s
    | .extOf width => do
      let (length, s) ← takeNat width s
      extOf levels length s
    | .reserved => none
where
  arrayOf (levels length : Nat) (s : List UInt8) : Option (PackValue × List UInt8) :=
    match levels with
    | 0 => none
    | levels + 1 => do
      let (items, s) ← readMany (readNested levels) length [] s
      return (.array items, s)
  mapOf (levels length : Nat) (s : List UInt8) : Option (PackValue × List UInt8) :=
    match levels with
    | 0 => none
    | levels + 1 => do
      let (entries, s) ← readMany (readPair (readNested levels)) length [] s
      return (.map entries, s)
  extOf (levels length : Nat) (s : List UInt8) : Option (PackValue × List UInt8) := do
    if levels = 0 then none
    else
      let (tag, s) ← takeBytes 1 s
      let (bytes, s) ← takeBytes length s
      return (.ext (tag.headD 0) bytes, s)

/-- Levels of nesting that are read. -/
def nestingLimit : Nat := 1023

def read (s : List UInt8) : Option (PackValue × List UInt8) :=
  readNested nestingLimit s

end PackValue

end TwoWire
