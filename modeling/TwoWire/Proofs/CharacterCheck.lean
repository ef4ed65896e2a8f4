import Mathlib.Order.Fin.Basic
import TwoWire.Proofs.SamplerReading

/-! The checks of a character against a line that is pulled low. A character whose line
reads back as driven is read as its byte, and one that does not in a single slot fails a
check, whichever slot that is. -/

namespace TwoWire

namespace Character

theorem getElem?_spread_even (bits : List Bool) (i : Nat) : (spread bits)[2 * i]? = bits[i]? := by
  induction bits generalizing i with
  | nil => rfl
  | cons bit rest ih =>
    cases i with
    | zero => rfl
    | succ i => exact ih i

theorem getElem?_spread_odd (bits : List Bool) (i : Nat) :
    (spread bits)[2 * i + 1]? = bits[i]?.map fun _ => true := by
  induction bits generalizing i with
  | nil => rfl
  | cons bit rest ih =>
    cases i with
    | zero => rfl
    | succ i => exact ih i

section

variable (value : UInt8)

theorem getElem?_levels {slot : Nat} (h : slot < slotsPerCharacter) :
    (levels value)[slot]? = some (level value slot) := by
  rw [level, List.getD_eq_getElem?_getD, List.getElem?_eq_getElem (by simpa using h)]
  rfl

theorem level_of_odd {slot : Nat} (h : slot < slotsPerCharacter) (odd : slot % 2 = 1) :
    level value slot = true := by
  have hhalf : slot = 2 * (slot / 2) + 1 := by omega
  have hlt : slot / 2 < (false :: dataBits value ++ [parityBit value, true]).length := by
    simp only [slotsPerCharacter] at h
    simp
    omega
  rw [level, levels, List.getD_eq_getElem?_getD, hhalf, getElem?_spread_odd,
    List.getElem?_eq_getElem hlt]
  rfl

theorem level_start : level value 0 = false := rfl

theorem level_parity : level value paritySlot = parityBit value := rfl

theorem level_data {i : Nat} (h : i < 8) : level value (2 * i + 2) = value.toNat.testBit i := by
  have hbit : (dataBits value)[i]? = some (value.toNat.testBit i) := by
    simp [dataBits, h]
  have heven : 2 * i + 2 = 2 * (i + 1) := by omega
  rw [level, levels, List.getD_eq_getElem?_getD, heven, getElem?_spread_even, List.cons_append,
    List.getElem?_cons_succ, List.getElem?_append_left (by simpa using h), hbit]
  rfl

theorem data_levels : data (levels value) = value := by
  refine byte_eq_of_testBit fun i hi => ?_
  rw [testBit_data _ hi, ← level_data value hi, level]

theorem isClean_levels : (faults (levels value)).isClean = true := by
  have hstart : (faults (levels value)).start = false := rfl
  have hparity : (faults (levels value)).parity = false := by
    have hlevel : (levels value)[paritySlot]? = some (parityBit value) := rfl
    simp [faults, hlevel, data_levels]
  have hstop : (faults (levels value)).stop = false := rfl
  have hgap : (faults (levels value)).gap = false := by
    rw [Bool.eq_false_iff, ne_eq, gap_iff]
    rintro ⟨slot, hodd, hlow⟩
    have hslot : slot < slotsPerCharacter := by
      simpa using (List.getElem?_eq_some_iff.mp hlow).1
    rw [getElem?_levels value hslot, level_of_odd value hslot hodd] at hlow
    cases hlow
  simp [CharacterFaults.isClean, hstart, hparity, hstop, hgap]

theorem read_levels : read (levels value) = .ok value := by
  rw [read, isClean_levels, data_levels]
  rfl

end

/-- The levels of the line while a byte is driven and somebody pulls it low in some slots. -/
def onWire (value : UInt8) (pull : Fin slotsPerCharacter → Bool) : List Bool :=
  List.ofFn fun slot => level value slot && !pull slot

/-- The slots that are driven high and pulled low: there the line does not read back. -/
def struck (value : UInt8) (pull : Fin slotsPerCharacter → Bool) :
    List (Fin slotsPerCharacter) :=
  (List.finRange slotsPerCharacter).filter fun slot => level value slot && pull slot

section

variable {value : UInt8} {pull : Fin slotsPerCharacter → Bool}

theorem mem_struck {slot : Fin slotsPerCharacter} :
    slot ∈ struck value pull ↔ level value slot = true ∧ pull slot = true := by
  simp [struck]

theorem getElem?_onWire (slot : Fin slotsPerCharacter) :
    (onWire value pull)[slot.val]? = some (level value slot && !pull slot) := by
  simp only [onWire, List.getElem?_ofFn, slot.isLt, ↓reduceDIte]

theorem level_onWire (slot : Fin slotsPerCharacter) :
    (level value slot && !pull slot) =
      if slot ∈ struck value pull then false else level value slot := by
  cases hlevel : level value slot <;> cases hpull : pull slot <;> simp [mem_struck, hlevel, hpull]

theorem take_onWire (slot : Fin slotsPerCharacter) :
    (onWire value pull).take (slot + 1) =
      (onWire value pull).take slot ++ [level value slot && !pull slot] := by
  rw [List.take_add_one, getElem?_onWire]
  rfl

/-- No pull can hide the start of a character. -/
theorem onWire_starts_low {slot : Fin slotsPerCharacter}
    (h : (onWire value pull).take slot = []) : (level value slot && !pull slot) = false := by
  have hzero : slot.val = 0 := by
    have hlength := congrArg List.length h
    have hlt := slot.isLt
    simp only [List.length_take, onWire, List.length_ofFn, List.length_nil] at hlength
    omega
  rw [hzero, level_start, Bool.false_and]

/-- A line is known by its level in each slot. -/
theorem eq_of_slots {xs ys : List Bool} (hx : xs.length = slotsPerCharacter)
    (hy : ys.length = slotsPerCharacter)
    (h : ∀ slot : Fin slotsPerCharacter, xs[slot.val]? = ys[slot.val]?) : xs = ys := by
  refine List.ext_getElem? fun i => ?_
  by_cases hi : i < slotsPerCharacter
  · exact h ⟨i, hi⟩
  · rw [List.getElem?_eq_none (by omega), List.getElem?_eq_none (by omega)]

theorem onWire_of_not_struck (h : struck value pull = []) : onWire value pull = levels value := by
  refine eq_of_slots (by simp [onWire]) (length_levels value) fun slot => ?_
  rw [getElem?_onWire, level_onWire, getElem?_levels value slot.isLt, h]
  rfl

/-- Where the only struck slot is, the line is low; everywhere else it is as driven. -/
theorem onWire_of_struck_once {slot : Fin slotsPerCharacter} (h : struck value pull = [slot]) :
    onWire value pull = (levels value).set slot false := by
  refine eq_of_slots (by simp [onWire]) (by simp) fun other => ?_
  rw [getElem?_onWire, level_onWire, List.getElem?_set, h]
  by_cases heq : slot = other
  · simp [heq]
  · have hne : slot.val ≠ other.val := fun hval => heq (Fin.ext hval)
    rw [if_neg hne, getElem?_levels value other.isLt]
    simp [Ne.symm heq]

/-- Clearing one bit of a byte that is set turns its parity over. -/
theorem parityBit_of_cleared {cleared : UInt8} {i : Nat} (hi : i < 8)
    (hset : value.toNat.testBit i = true)
    (hcleared : ∀ j < 8, cleared.toNat.testBit j =
      if i = j then false else value.toNat.testBit j) :
    parityBit cleared = !parityBit value := by
  have hlength : i < (dataBits value).length := by simpa using hi
  have hbits : dataBits cleared = (dataBits value).set i false := by
    refine List.ext_getElem (by simp) fun j hj _ => ?_
    have hj' : j < 8 := by simpa using hj
    rw [List.getElem_set]
    simp [dataBits, hcleared j hj']
  have hcount : (dataBits cleared).count false = (dataBits value).count false + 1 := by
    have hbit : (dataBits value)[i] = true := by simpa [dataBits] using hset
    rw [hbits, List.count_set hlength, hbit]
    rfl
  simp only [parityBit, hcount]
  rcases Nat.mod_two_eq_zero_or_one ((dataBits value).count false) with h | h <;>
    simp [Nat.add_mod, h]

theorem testBit_data_set {slot j : Nat} (hj : j < 8) :
    (data ((levels value).set slot false)).toNat.testBit j =
      if slot = 2 * j + 2 then false else value.toNat.testBit j := by
  have hslot : 2 * j + 2 < (levels value).length := by simp [slotsPerCharacter]; omega
  rw [testBit_data _ hj, List.getD_eq_getElem?_getD, List.getElem?_set,
    getElem?_levels value (by simpa using hslot), level_data value hj]
  by_cases h : slot = 2 * j + 2
  · rw [if_pos h, if_pos h, if_pos (h ▸ hslot)]
    rfl
  · rw [if_neg h, if_neg h]
    rfl

theorem read_of_fault {levels : List Bool} (h : (faults levels).isClean = false) :
    ∃ data faults, read levels = .error (.badCharacter data faults) :=
  ⟨data levels, faults levels, by simp [read, h]⟩

/-- A line that is low in a single slot in which it is driven high fails a check. -/
theorem read_of_struck_once {slot : Fin slotsPerCharacter} (h : struck value pull = [slot]) :
    ∃ data faults, read (onWire value pull) = .error (.badCharacter data faults) := by
  have hhigh : level value slot = true := (mem_struck.mp (h ▸ List.mem_singleton_self slot)).1
  have hlow : ((levels value).set slot false)[slot.val]? = some false := by
    simp
  refine read_of_fault ?_
  rw [onWire_of_struck_once h]
  -- The start bit is never driven high; parity guards the data bits and itself, and all other
  -- slots have checks of their own.
  rcases slot_cases slot.isLt with hodd | hzero | hparity | hstop | ⟨i, hi, hbit⟩
  · have hgap : (faults ((levels value).set slot false)).gap = true :=
      (gap_iff _).mpr ⟨slot, hodd, hlow⟩
    simp [CharacterFaults.isClean, hgap]
  · rw [hzero, level_start] at hhigh
    cases hhigh
  · rw [hparity] at hhigh hlow ⊢
    have hdata : data ((levels value).set paritySlot false) = value :=
      byte_eq_of_testBit fun j hj => by
        rw [testBit_data_set hj, if_neg (by simp only [paritySlot]; omega)]
    have hwrong : (faults ((levels value).set paritySlot false)).parity = true := by
      rw [level_parity] at hhigh
      simp only [faults, hlow, hdata, hhigh]
      rfl
    simp [CharacterFaults.isClean, hwrong]
  · rw [hstop] at hlow ⊢
    have hstopped : (faults ((levels value).set stopSlot false)).stop = true := by
      simp only [faults, hlow]
      rfl
    simp [CharacterFaults.isClean, hstopped]
  · rw [hbit] at hhigh ⊢
    have hturned : parityBit (data ((levels value).set (2 * i + 2) false)) = !parityBit value := by
      refine parityBit_of_cleared hi ((level_data value hi).symm.trans hhigh) fun j hj => ?_
      have hsame : 2 * i + 2 = 2 * j + 2 ↔ i = j := by omega
      simp only [testBit_data_set hj, hsame]
    have hlevel : ((levels value).set (2 * i + 2) false)[paritySlot]? = some (parityBit value) := by
      rw [List.getElem?_set, if_neg (by simp only [paritySlot]; omega)]
      exact getElem?_levels value (by decide)
    have hwrong : (faults ((levels value).set (2 * i + 2) false)).parity = true := by
      simp [faults, hlevel, hturned]
    simp [CharacterFaults.isClean, hwrong]

end

end Character

end TwoWire
