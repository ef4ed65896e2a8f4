import TwoWire.Text.Hex

/-! Bytes as characters of the wire. A character is eleven bits, a low start bit,
eight data bits from the least significant one, a parity bit and a high stop bit,
and each bit is followed by a released, hence high, half period. -/

namespace TwoWire

/-- Half periods in a character. -/
abbrev slotsPerCharacter : Nat := 22

abbrev paritySlot : Nat := 18

abbrev stopSlot : Nat := 20

namespace Character

/-- The bits of a byte, least significant first. -/
def dataBits (value : UInt8) : List Bool :=
  (List.range 8).map value.toNat.testBit

/-- High where an even number of data bits are zero. -/
def parityBit (value : UInt8) : Bool :=
  (dataBits value).count false % 2 == 0

/-- Each bit followed by a high half period. -/
def spread (bits : List Bool) : List Bool :=
  bits.flatMap fun bit => [bit, true]

/-- The levels of a character in the order in which they are driven. -/
def levels (value : UInt8) : List Bool :=
  spread (false :: dataBits value ++ [parityBit value, true])

def level (value : UInt8) (slot : Nat) : Bool :=
  (levels value).getD slot false

/-- Levels as a word with the first one in its lowest bit. -/
def word (levels : List Bool) : UInt32 :=
  levels.foldr (fun level rest => 2 * rest + if level then 1 else 0) 0

/-- The low eleven bits of a number, spread out in a word. -/
def spreadWord (value : UInt16) : UInt32 :=
  word (spread ((List.range 11).map value.toNat.testBit))

/-- Nanoseconds of a half period at so many bits a second. -/
def slotPeriod (baud : UInt32) : Option Nat :=
  if baud = 0 then none else some (500000000 / baud.toNat)

@[simp] theorem length_dataBits (value : UInt8) : (dataBits value).length = 8 := by
  simp [dataBits]

theorem length_spread (bits : List Bool) : (spread bits).length = 2 * bits.length := by
  induction bits with
  | nil => rfl
  | cons bit rest ih =>
    simp only [spread, List.flatMap_cons, List.length_append, List.length_cons,
      List.length_nil] at ih ⊢
    omega

@[simp] theorem length_levels (value : UInt8) : (levels value).length = slotsPerCharacter := by
  simp [levels, length_spread]

/-- The eleven bits of a byte as a number, with the start bit lowest. -/
def frameBits (value : UInt8) : UInt16 :=
  let parity : UInt16 := if parityBit value then 1 else 0
  (value.toUInt16 ||| parity <<< 8 ||| (1 : UInt16) <<< 9) <<< 1

theorem testBit_frameBits (value : UInt8) :
    (List.range 11).map (frameBits value).toNat.testBit =
      false :: dataBits value ++ [parityBit value, true] := by
  have hlow (n : Nat) {i : Nat} (hi : i < 16) : (n % 65536).testBit i = n.testBit i := by
    rw [Nat.testBit_mod_two_pow n 16 i, decide_eq_true hi, Bool.true_and]
  have hnone (i : Nat) (hi : 8 ≤ i) : value.toNat.testBit i = false :=
    Nat.testBit_lt_two_pow (Nat.lt_of_lt_of_le value.toNat_lt (Nat.pow_le_pow_right (by decide) hi))
  have hparityBit (i : Nat) : Nat.testBit 256 i = decide (8 = i) :=
    Nat.testBit_two_pow (n := 8)
  have hstopBit (i : Nat) : Nat.testBit 512 i = decide (9 = i) :=
    Nat.testBit_two_pow (n := 9)
  cases hparity : parityBit value
  all_goals
    simp [frameBits, dataBits, hparity, List.range_succ, hlow, hnone, hparityBit,
      hstopBit, -Nat.testBit_zero]

/-- Spreading the bits of a byte out in a word gives its levels. -/
theorem spreadWord_frameBits (value : UInt8) :
    spreadWord (frameBits value) = word (levels value) := by
  rw [spreadWord, testBit_frameBits, levels]
end Character

/-- The checks that a received character failed: start bit high, wrong parity, stop
bit low, or a low level between two bits. -/
structure CharacterFaults where
  start : Bool := false
  parity : Bool := false
  stop : Bool := false
  gap : Bool := false
deriving DecidableEq

namespace CharacterFaults

def isClean (f : CharacterFaults) : Bool :=
  !(f.start || f.parity || f.stop || f.gap)

def text (f : CharacterFaults) : String :=
  let failed := [(f.start, "start"), (f.parity, "parity"), (f.stop, "stop"), (f.gap, "gap")]
  match failed.filter Prod.fst with
  | [] => "none"
  | names => ", ".intercalate (names.map Prod.snd)

end CharacterFaults

/-- Failures on the wire: a sample while no character is expected, a second start
edge, a character that failed its checks, a level that did not read back. -/
inductive SignalError where
  | idle
  | busy
  | badCharacter (data : UInt8) (faults : CharacterFaults)
  | collision (byte slot : Nat) (driven sampled : Bool)
deriving DecidableEq

def SignalError.message : SignalError → String
  | idle => "sample outside a character"
  | busy => "start edge during a character"
  | badCharacter data faults =>
    let shown := hexText data
    let failed := faults.text
    s!"bad character {shown}: {failed}"
  | collision byte slot driven sampled =>
    s!"collision on byte {byte} slot {slot}: drove {driven}, read {sampled}"

/-- A level that reads back differently from what was driven is a collision. -/
def checkReadback (byte slot : Nat) (driven sampled : Bool) : Except SignalError Unit :=
  if driven = sampled then .ok () else .error (.collision byte slot driven sampled)

end TwoWire
