/-! Bytes as pairs of lower-case hexadecimal digits. -/

namespace TwoWire

def hexDigit (n : Nat) : Char :=
  if n < 10 then Char.ofNat (n + 48) else Char.ofNat (n + 87)

/-- The two digits of a byte, high half first. -/
def hexByte (b : UInt8) : List Char :=
  [hexDigit (b.toNat / 16), hexDigit (b.toNat % 16)]

/-- A byte in messages: `0x` and two digits. -/
def hexText (b : UInt8) : String :=
  "0x" ++ String.ofList (hexByte b)

def hexValue? (c : Char) : Option Nat :=
  if '0' ≤ c ∧ c ≤ '9' then some (c.toNat - 48)
  else if 'a' ≤ c ∧ c ≤ 'f' then some (c.toNat - 87)
  else if 'A' ≤ c ∧ c ≤ 'F' then some (c.toNat - 55)
  else none

def hexString (bytes : List UInt8) : String :=
  String.ofList (bytes.flatMap hexByte)

def ofHexDigits? : List Char → Option (List UInt8)
  | [] => some []
  | [_] => none
  | high :: low :: rest => do
    let byte := (16 * (← hexValue? high) + (← hexValue? low)).toUInt8
    return byte :: (← ofHexDigits? rest)

end TwoWire
