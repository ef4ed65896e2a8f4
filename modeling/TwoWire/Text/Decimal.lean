/-! Numbers in decimal digits, most significant first and without leading zeros. -/

namespace TwoWire

def decimalDigit (d : Nat) : Char :=
  Char.ofNat (d + 48)

def decimal (n : Nat) : List Char :=
  if n < 10 then [decimalDigit n] else decimal (n / 10) ++ [decimalDigit (n % 10)]

def digitValue (c : Char) : Nat :=
  c.toNat - 48

/-- The value of some digits behind those of a number already read. -/
def decimalValue (before : Nat) (digits : List Char) : Nat :=
  digits.foldl (fun n c => 10 * n + digitValue c) before

end TwoWire
