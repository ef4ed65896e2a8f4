import TwoWire.Text.Scan
import TwoWire.Text.Hex

/-! Quoted text, from behind its opening quote. Characters below the blank have to
be escaped. An escape with four hexadecimal digits is a sixteen-bit unit; where the
text is wanted, units of a surrogate pair have to come in order and together. -/

namespace TwoWire

namespace Quoted

/-- The character that a one-letter escape stands for. -/
def simpleEscape? : Char → Option Char
  | '\x22' => some '\x22'
  | '\x5c' => some '\x5c'
  | '/' => some '/'
  | 'b' => some '\x08'
  | 'f' => some '\x0c'
  | 'n' => some '\n'
  | 'r' => some '\r'
  | 't' => some '\t'
  | _ => none

def unit? (a b c d : Char) : Option Nat := do
  return ((16 * (← hexValue? a) + (← hexValue? b)) * 16 + (← hexValue? c)) * 16 + (← hexValue? d)

/-- The fault of a unit that has not its four digits: the text may just end too
early, where too early is counted in bytes. -/
def unitFault (s : List Char) : TextFault :=
  if (s.map Char.utf8Size).foldr (· + ·) 0 < 4 then .truncated else .malformed

def isLeading (unit : Nat) : Bool :=
  0xd800 ≤ unit && unit < 0xdc00

def isTrailing (unit : Nat) : Bool :=
  0xdc00 ≤ unit && unit < 0xe000

def pairChar (leading trailing : Nat) : Char :=
  Char.ofNat ((leading - 0xd800) * 0x400 + (trailing - 0xdc00) + 0x10000)

/-- Reads a unit and, if it is a leading surrogate, the trailing one that has to
follow it. -/
def readUnit (s : List Char) : Except TextFault (Char × List Char) :=
  match s with
  | a :: b :: c :: d :: s =>
    match unit? a b c d with
    | none => .error .malformed
    | some unit =>
      if isTrailing unit then .error .malformed
      else if isLeading unit then
        match s with
        | '\x5c' :: 'u' :: e :: f :: g :: h :: s =>
          match unit? e f g h with
          | none => .error .malformed
          | some second =>
            if isTrailing second then .ok (pairChar unit second, s) else .error .malformed
        | [] | ['\x5c'] => .error .truncated
        | '\x5c' :: 'u' :: s => .error (unitFault s)
        | _ => .error .malformed
      else .ok (Char.ofNat unit, s)
  | s => .error (unitFault s)

def readEscape : List Char → Except TextFault (Char × List Char)
  | [] => .error .truncated
  | 'u' :: s => readUnit s
  | c :: s =>
    match simpleEscape? c with
    | some c => .ok (c, s)
    | none => .error .malformed

/-- Reads up to the closing quote, with a bound on the characters of the text. -/
def readWithin : Nat → Reader (List Char)
  | 0, _ => .error .truncated
  | _, [] => .error .truncated
  | n + 1, c :: s =>
    if c = '\x22' then .ok ([], s)
    else if c = '\x5c' then do
      let (c, s) ← readEscape s
      let (text, s) ← readWithin n s
      return (c :: text, s)
    else if c < ' ' then .error .malformed
    else do
      let (text, s) ← readWithin n s
      return (c :: text, s)

def read (s : List Char) : Except TextFault (List Char × List Char) :=
  readWithin s.length s

/-- Skips up to the closing quote; units need not pair up. -/
def skip : List Char → Except TextFault (List Char)
  | [] => .error .truncated
  | '\x22' :: s => .ok s
  | ['\x5c'] => .error .truncated
  | '\x5c' :: 'u' :: a :: b :: c :: d :: s =>
    if (unit? a b c d).isSome then skip s else .error .malformed
  | '\x5c' :: 'u' :: s => .error (unitFault s)
  | '\x5c' :: c :: s => if (simpleEscape? c).isSome then skip s else .error .malformed
  | c :: s => if c < ' ' then .error .malformed else skip s

end Quoted

end TwoWire
