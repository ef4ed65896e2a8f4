import TwoWire.Text.Decimal
import TwoWire.Text.Scan

/-! Numbers in a text. A numeral is a sign, whole digits, perhaps a fraction and
perhaps an exponent. Only those that are plain natural numbers of at most
sixty-four bits have a value here; of the others it matters whether a
double-precision number could hold them. -/

namespace TwoWire

structure Numeral where
  negative : Bool
  whole : List Char
  /-- Digits after the point, if there is one. -/
  fraction : Option (List Char)
  /-- Whether the exponent is negative, and its digits. -/
  exponent : Option (Bool × List Char)

namespace Numeral

/-- One digit or more; `cut` is the fault of a text that ends here. -/
def scanDigits (cut : TextFault) (s : List Char) : Except TextFault (List Char × List Char) :=
  match s.takeWhile Char.isDigit with
  | [] => .error (if s.isEmpty then cut else .malformed)
  | digits => .ok (digits, s.dropWhile Char.isDigit)

/-- Whole digits, of which a leading zero is the only one. -/
def scanWhole (cut : TextFault) (s : List Char) : Except TextFault (List Char × List Char) := do
  let (digits, s) ← scanDigits cut s
  match digits with
  | '0' :: _ :: _ => .error .malformed
  | _ => .ok (digits, s)

def scanFraction (cut : TextFault) :
    List Char → Except TextFault (Option (List Char) × List Char)
  | '.' :: s => do
    let (digits, s) ← scanDigits cut s
    return (some digits, s)
  | s => .ok (none, s)

def scanExponent (cut : TextFault) (s : List Char) :
    Except TextFault (Option (Bool × List Char) × List Char) :=
  match s with
  | [] => .ok (none, s)
  | e :: after =>
    if e = 'e' ∨ e = 'E' then do
      let (negative, after) := match after with
        | '-' :: after => (true, after)
        | '+' :: after => (false, after)
        | _ => (false, after)
      let (digits, after) ← scanDigits cut after
      return (some (negative, digits), after)
    else .ok (none, s)

def scan (cut : TextFault) (s : List Char) : Except TextFault (Numeral × List Char) := do
  let (negative, s) := match s with
    | '-' :: s => (true, s)
    | _ => (false, s)
  let (whole, s) ← scanWhole cut s
  let (fraction, s) ← scanFraction cut s
  let (exponent, s) ← scanExponent cut s
  return (⟨negative, whole, fraction, exponent⟩, s)

/-- Takes digits behind a number as long as it stays below two to the sixty-fourth.
Gives the number, how many digits it took and how many are left. -/
def accumulate (n : Nat) : List Char → Nat × Nat × Nat
  | [] => (n, 0, 0)
  | c :: rest =>
    if 10 * n + digitValue c < 18446744073709551616 then
      let (n, taken, left) := accumulate (10 * n + digitValue c) rest
      (n, taken + 1, left)
    else (n, 0, rest.length + 1)

/-- The value of a numeral that is a natural number of at most sixty-four bits. -/
def natural? (x : Numeral) : Option Nat :=
  match x.negative, x.fraction, x.exponent, accumulate 0 x.whole with
  | false, none, none, (n, _, 0) => some n
  | _, _, _, _ => none

/-- Significant digits that fit sixty-four bits, and the power of ten that they are
to be multiplied by. Whole digits that do not fit raise the power; such digits of
the fraction are left out. -/
def parts (x : Numeral) : Nat × Int :=
  let (n, _, left) := accumulate 0 x.whole
  let (n, taken, _) := accumulate n (x.fraction.getD [])
  let shift : Int := match x.exponent with
    | none => 0
    | some (true, digits) => -(decimalValue 0 digits : Int)
    | some (false, digits) => decimalValue 0 digits
  (n, (left : Int) - taken + shift)

/-- The nearest number of at most fifty-three significant bits; of two the one with
an even last bit. -/
def toDouble (n : Nat) : Nat :=
  let extra := n.log2 + 1 - 53
  let unit := Nat.pow 2 extra
  let kept := n / unit
  let lost := 2 * (n % unit)
  if lost > unit ∨ lost = unit ∧ kept % 2 = 1 then (kept + 1) * unit else kept * unit

/-- The numeral is beyond every finite double: its power of ten is, or its digits
and its power, each rounded, have a product that rounds to infinity. -/
def overflows (x : Numeral) : Bool :=
  match x.parts with
  | (n, .ofNat power) =>
    n ≠ 0 ∧ (power > 308 ∨
      toDouble n * toDouble (Nat.pow 10 power) ≥ Nat.pow 2 1024 - Nat.pow 2 970)
  | (_, .negSucc _) => false

end Numeral

/-- A number as a reader of fields meets it: one that overflows is not accepted
even to be refused. The value is there if the numeral is a natural number. -/
def readNumeral (s : List Char) : Except TextFault (Option Nat × List Char) := do
  let (x, s) ← Numeral.scan .truncated s
  match x.natural? with
  | some n => return (some n, s)
  | none => if x.overflows then .error .malformed else return (none, s)

end TwoWire
