/-! Values of MessagePack. Numbers keep the sign class and floating-point numbers
the width in which they came; text is kept as its bytes, which need not be valid
UTF-8. -/

namespace TwoWire

inductive PackValue where
  | nil
  | bool (b : Bool)
  | uint (n : UInt64)
  | sint (n : Int64)
  | float32 (bits : UInt32)
  | float64 (bits : UInt64)
  | str (utf8 : List UInt8)
  | bin (bytes : List UInt8)
  | array (items : List PackValue)
  | map (entries : List (PackValue × PackValue))
  | ext (tag : UInt8) (bytes : List UInt8)
  /-- Stands where a value refused to be written. -/
  | refusal (reason : String)

namespace PackValue

def ofString (s : String) : PackValue :=
  .str s.toUTF8.toList

/-- Text from its bytes, if they are valid UTF-8. -/
def text? (utf8 : List UInt8) : Option String :=
  String.fromUTF8? ⟨utf8.toArray⟩

/-- The number that a value of either sign class holds. -/
def int? : PackValue → Option Int
  | uint n => some n.toNat
  | sint n => some n.toInt
  | _ => none

end PackValue

/-- The lowest bytes of a number, most significant first. -/
def bigEndian : Nat → Nat → List UInt8
  | 0, _ => []
  | width + 1, n => (n / 256 ^ width).toUInt8 :: bigEndian width n

/-- The number that some bytes spell, most significant first. -/
def ofBigEndian (bytes : List UInt8) : Nat :=
  bytes.foldl (fun n b => 256 * n + b.toNat) 0

end TwoWire
