import TwoWire.Error
import TwoWire.Pack.Value

/-! Writing MessagePack, each value in its shortest form; only the width of a
floating-point number stays what it is. -/

namespace TwoWire

namespace PackValue

def uintBytes (n : Nat) : List UInt8 :=
  if n < 128 then [n.toUInt8]
  else if n < 256 then 0xcc :: bigEndian 1 n
  else if n < 65536 then 0xcd :: bigEndian 2 n
  else if n < 4294967296 then 0xce :: bigEndian 4 n
  else 0xcf :: bigEndian 8 n

/-- The shortest form of an integer; a negative one is written modulo its width. -/
def sintBytes (n : Int) : List UInt8 :=
  if 0 ≤ n then uintBytes n.toNat
  else if -32 ≤ n then [(256 + n).toNat.toUInt8]
  else if -128 ≤ n then 0xd0 :: bigEndian 1 (256 + n).toNat
  else if -32768 ≤ n then 0xd1 :: bigEndian 2 (65536 + n).toNat
  else if -2147483648 ≤ n then 0xd2 :: bigEndian 4 (4294967296 + n).toNat
  else 0xd3 :: bigEndian 8 (18446744073709551616 + n).toNat

def strHead (length : Nat) : List UInt8 :=
  if length < 32 then [0xa0 ||| length.toUInt8]
  else if length < 256 then 0xd9 :: bigEndian 1 length
  else if length < 65536 then 0xda :: bigEndian 2 length
  else 0xdb :: bigEndian 4 length

def binHead (length : Nat) : List UInt8 :=
  if length < 256 then 0xc4 :: bigEndian 1 length
  else if length < 65536 then 0xc5 :: bigEndian 2 length
  else 0xc6 :: bigEndian 4 length

def arrayHead (length : Nat) : List UInt8 :=
  if length < 16 then [0x90 ||| length.toUInt8]
  else if length < 65536 then 0xdc :: bigEndian 2 length
  else 0xdd :: bigEndian 4 length

def mapHead (length : Nat) : List UInt8 :=
  if length < 16 then [0x80 ||| length.toUInt8]
  else if length < 65536 then 0xde :: bigEndian 2 length
  else 0xdf :: bigEndian 4 length

def extHead (length : Nat) : List UInt8 :=
  match length with
  | 1 => [0xd4]
  | 2 => [0xd5]
  | 4 => [0xd6]
  | 8 => [0xd7]
  | 16 => [0xd8]
  | _ =>
    if length < 256 then 0xc7 :: bigEndian 1 length
    else if length < 65536 then 0xc8 :: bigEndian 2 length
    else 0xc9 :: bigEndian 4 length

mutual

/-- Puts a value behind what is written, all of it last byte first. -/
def writeOnto (written : List UInt8) : PackValue → Except BusError (List UInt8)
  | nil => .ok (0xc0 :: written)
  | bool b => .ok ((if b then 0xc3 else 0xc2) :: written)
  | uint n => .ok ((uintBytes n.toNat).reverseAux written)
  | sint n => .ok ((sintBytes n.toInt).reverseAux written)
  | float32 bits => .ok ((0xca :: bigEndian 4 bits.toNat).reverseAux written)
  | float64 bits => .ok ((0xcb :: bigEndian 8 bits.toNat).reverseAux written)
  | str utf8 => .ok (utf8.reverseAux ((strHead utf8.length).reverseAux written))
  | bin bytes => .ok (bytes.reverseAux ((binHead bytes.length).reverseAux written))
  | array items => writeItems ((arrayHead items.length).reverseAux written) items
  | map entries => writeEntries ((mapHead entries.length).reverseAux written) entries
  | ext tag bytes =>
    .ok (bytes.reverseAux (tag :: (extHead bytes.length).reverseAux written))
  | refusal reason => .error (.packRefused reason)

def writeItems (written : List UInt8) : List PackValue → Except BusError (List UInt8)
  | [] => .ok written
  | item :: items =>
    match writeOnto written item with
    | .error cause => .error cause
    | .ok written => writeItems written items

def writeEntries (written : List UInt8) :
    List (PackValue × PackValue) → Except BusError (List UInt8)
  | [] => .ok written
  | (key, value) :: entries =>
    match writeOnto written key with
    | .error cause => .error cause
    | .ok written =>
      match writeOnto written value with
      | .error cause => .error cause
      | .ok written => writeEntries written entries

end

def write (v : PackValue) : Except BusError (List UInt8) :=
  (writeOnto [] v).map List.reverse

/-- The bytes of a value, of which there may not be more than the bound. -/
def writeWithin (bound : Nat) (v : PackValue) : Except BusError (List UInt8) := do
  let bytes ← v.write
  if bytes.length > bound then .error (.badParam (.encodingTooLong bytes.length bound))
  else return bytes

end PackValue

end TwoWire
