import Mathlib.Data.Nat.Init
import TwoWire.Character.Sampler

/-! What a sampler makes of levels. While a character comes, its registers say what the
levels so far tell; after the last one they are as before the first. -/

namespace TwoWire

theorem byte_eq_of_testBit {a b : UInt8}
    (h : ∀ i < 8, a.toNat.testBit i = b.toNat.testBit i) : a = b := by
  refine UInt8.toNat_inj.mp (Nat.eq_of_testBit_eq fun i => ?_)
  by_cases hi : i < 8
  · exact h i hi
  · have hlt : ∀ c : UInt8, c.toNat < 2 ^ i := fun c =>
      Nat.lt_of_lt_of_le c.toNat_lt (Nat.pow_le_pow_right (by decide) (Nat.le_of_not_lt hi))
    rw [Nat.testBit_lt_two_pow (hlt a), Nat.testBit_lt_two_pow (hlt b)]

namespace Character

/-- What the slots of a character are for: released half periods, start bit, parity bit, stop
bit, data bits. -/
theorem slot_cases {slot : Nat} (h : slot < slotsPerCharacter) :
    slot % 2 = 1 ∨ slot = 0 ∨ slot = paritySlot ∨ slot = stopSlot ∨
      ∃ i < 8, slot = 2 * i + 2 := by
  simp only [slotsPerCharacter, paritySlot, stopSlot] at *
  by_cases hodd : slot % 2 = 1
  · exact .inl hodd
  · by_cases hdata : 2 ≤ slot ∧ slot < 18
    · have hhalf : slot = 2 * ((slot - 2) / 2) + 2 := by omega
      exact .inr (.inr (.inr (.inr ⟨(slot - 2) / 2, by omega, hhalf⟩)))
    · omega

/-- The byte in the levels of a character; a level that has not come yet counts as low. -/
def data (levels : List Bool) : UInt8 :=
  (Nat.ofBits fun i : Fin 8 => levels.getD (2 * i + 2) false).toUInt8

/-- The checks that the levels so far fail. -/
def faults (levels : List Bool) : CharacterFaults where
  start := levels[0]?.any id
  parity := levels[paritySlot]?.any (· != parityBit (data levels))
  stop := levels[stopSlot]?.any (!·)
  gap := levels.zipIdx.any fun (level, slot) => slot % 2 == 1 && !level

/-- What the levels of a whole character are read as. -/
def read (levels : List Bool) : Except SignalError UInt8 :=
  if (faults levels).isClean then .ok (data levels)
  else .error (.badCharacter (data levels) (faults levels))

theorem testBit_data (levels : List Bool) {i : Nat} (h : i < 8) :
    (data levels).toNat.testBit i = levels.getD (2 * i + 2) false := by
  have hlt := Nat.ofBits_lt_two_pow fun i : Fin 8 => levels.getD (2 * i + 2) false
  rw [data, Nat.toUInt8_eq, UInt8.toNat_ofNat_of_lt' hlt, Nat.testBit_ofBits_lt _ i h]

theorem gap_iff (levels : List Bool) :
    (faults levels).gap ↔ ∃ slot, slot % 2 = 1 ∧ levels[slot]? = some false := by
  simp only [faults, List.any_eq_true, Prod.exists, List.mem_zipIdx_iff_getElem?]
  constructor
  · rintro ⟨level, slot, hlevel, hgap⟩
    simp only [Bool.and_eq_true, beq_iff_eq, Bool.not_eq_true'] at hgap
    exact ⟨slot, hgap.1, hgap.2 ▸ hlevel⟩
  · rintro ⟨slot, hodd, hlevel⟩
    exact ⟨false, slot, hlevel, by simp [hodd]⟩

theorem getElem?_concat (levels : List Bool) (level : Bool) (i : Nat) :
    (levels ++ [level])[i]? = if i = levels.length then some level else levels[i]? := by
  rw [List.getElem?_append]
  by_cases h : i < levels.length
  · simp [h, Nat.ne_of_lt h]
  · by_cases heq : i = levels.length
    · simp [heq]
    · have hsub : i - levels.length ≠ 0 := by omega
      simp [h, heq, hsub]

section

variable (levels : List Bool) (level : Bool)

theorem getD_concat (i : Nat) :
    (levels ++ [level]).getD i false =
      if i = levels.length then level else levels.getD i false := by
  rw [List.getD_eq_getElem?_getD, getElem?_concat, List.getD_eq_getElem?_getD]
  split <;> rfl

theorem data_concat_of_ne (h : ∀ i < 8, levels.length ≠ 2 * i + 2) :
    data (levels ++ [level]) = data levels := by
  refine byte_eq_of_testBit fun i hi => ?_
  rw [testBit_data _ hi, testBit_data _ hi, getD_concat, if_neg (Ne.symm (h i hi))]

/-- A data bit has its place behind those that came before. -/
theorem data_concat_of_eq {i : Nat} (hi : i < 8) (h : levels.length = 2 * i + 2) :
    data (levels ++ [level]) =
      if level then data levels ||| (1 <<< i.toUInt8) else data levels := by
  have hbit : ∀ i < 8, (1 <<< i.toUInt8 : UInt8).toNat = 2 ^ i := by decide
  have hmissing : levels.getD (2 * i + 2) false = false := by simp [← h]
  refine byte_eq_of_testBit fun j hj => ?_
  rw [testBit_data _ hj, getD_concat]
  by_cases hij : i = j
  · subst hij
    rw [if_pos h.symm]
    cases level with
    | false => rw [if_neg Bool.false_ne_true, testBit_data _ hi, hmissing]
    | true => simp [hbit i hi]
  · have hne : ¬ 2 * j + 2 = levels.length := by omega
    rw [if_neg hne]
    cases level with
    | false => rw [if_neg Bool.false_ne_true, testBit_data _ hj]
    | true => simp [hbit i hi, hij, testBit_data _ hj]

/-- Where the checks look, the byte is complete. -/
theorem data_concat_of_le (h : paritySlot ≤ levels.length) :
    data (levels ++ [level]) = data levels :=
  data_concat_of_ne levels level fun i _ => by
    simp only [paritySlot] at h
    omega

theorem faults_concat :
    faults (levels ++ [level]) =
      { start := if levels.length = 0 then level else (faults levels).start
        parity := if levels.length = paritySlot then level != parityBit (data levels)
          else (faults levels).parity
        stop := if levels.length = stopSlot then !level else (faults levels).stop
        gap := (faults levels).gap || levels.length % 2 == 1 && !level } := by
  have hstart : (faults (levels ++ [level])).start =
      if levels.length = 0 then level else (faults levels).start := by
    simp only [faults, getElem?_concat, eq_comm]
    split <;> rfl
  have hstop : (faults (levels ++ [level])).stop =
      if levels.length = stopSlot then !level else (faults levels).stop := by
    simp only [faults, getElem?_concat, eq_comm]
    split <;> rfl
  have hparity : (faults (levels ++ [level])).parity =
      if levels.length = paritySlot then level != parityBit (data levels)
      else (faults levels).parity := by
    simp only [faults, getElem?_concat, eq_comm]
    by_cases h : paritySlot ≤ levels.length
    · rw [data_concat_of_le levels level h]
      split <;> rfl
    · have hnone : levels[paritySlot]? = none := List.getElem?_eq_none (Nat.le_of_not_le h)
      have hne : levels.length ≠ paritySlot := fun heq => h (Nat.le_of_eq heq.symm)
      simp [hnone, hne]
  have hgap : (faults (levels ++ [level])).gap =
      ((faults levels).gap || levels.length % 2 == 1 && !level) := by
    simp [faults, List.zipIdx_append]
  rw [← hstart, ← hparity, ← hstop, ← hgap]

end

end Character

def Tally.after (result : Except SignalError UInt8) (t : Tally) : Tally :=
  match result with
  | .ok _ => t.countGood
  | .error (.badCharacter _ faults) => t.countBad faults
  | .error _ => t

namespace Sampler

section

variable {s : Sampler} (level : Bool)

theorem observe_of_odd (h : s.slot % 2 = 1) :
    s.observe level = { s with faults.gap := s.faults.gap || !level } :=
  if_pos h

theorem observe_of_start (h : s.slot = 0) :
    s.observe level = { s with faults.start := s.faults.start || level } := by
  simp [observe, h]

theorem observe_of_parity (h : s.slot = paritySlot) :
    s.observe level =
      { s with faults.parity := s.faults.parity || level != Character.parityBit s.data } := by
  simp [observe, h, paritySlot]

theorem observe_of_stop (h : s.slot = stopSlot) :
    s.observe level = { s with faults.stop := s.faults.stop || !level } := by
  simp [observe, h, paritySlot, stopSlot]

theorem observe_of_data {i : Nat} (hi : i < 8) (h : s.slot = 2 * i + 2) :
    s.observe level =
      { s with
        data := if level then s.data ||| (1 <<< s.filled.toUInt8) else s.data
        filled := s.filled + 1 } := by
  have hparity : 2 * i ≠ 16 := by omega
  have hstop : 2 * i ≠ 18 := by omega
  simp [observe, h, paritySlot, stopSlot, hparity, hstop]

theorem tally_observe (s : Sampler) : (s.observe level).tally = s.tally := by
  unfold observe
  repeat' split
  all_goals rfl

end

/-- The sampler has taken these levels of a character so far. -/
structure Heard (levels : List Bool) (s : Sampler) : Prop where
  receiving : s.receiving = true
  slot : s.slot = levels.length
  filled : s.filled = min 8 ((levels.length - 1) / 2)
  data : s.data = Character.data levels
  faults : s.faults = Character.faults levels

def take (level : Bool) (s : Sampler) : Sampler :=
  { s.observe level with slot := s.slot + 1 }

theorem Heard.of_observe {levels : List Bool} {level : Bool} {s : Sampler} (h : s.Heard levels)
    {data : UInt8} {filled : Nat} {faults : CharacterFaults}
    (hobserve : s.observe level = { s with data, filled, faults })
    (hdata : Character.data (levels ++ [level]) = data)
    (hfilled : filled = min 8 (levels.length / 2))
    (hfaults : Character.faults (levels ++ [level]) = faults) :
    (s.take level).Heard (levels ++ [level]) := by
  have htake : s.take level = { s with slot := s.slot + 1, data, filled, faults } := by
    rw [Sampler.take, hobserve]
  rw [htake]
  exact ⟨h.receiving, by simp [h.slot], by simp [hfilled], hdata.symm, hfaults.symm⟩

theorem Heard.take {levels : List Bool} {s : Sampler} (h : s.Heard levels)
    (short : levels.length < slotsPerCharacter) (level : Bool) :
    (s.take level).Heard (levels ++ [level]) := by
  have hslot := h.slot
  have hfilled := h.filled
  have hconcat := Character.faults_concat levels level
  -- Each slot has its own register, and the level of any other slot leaves that as it was.
  rcases Character.slot_cases short with hodd | hzero | hparity | hstop | ⟨i, hi, hbit⟩
  · have hdata := Character.data_concat_of_ne levels level fun i _ => by omega
    have hne : levels.length ≠ 0 ∧ levels.length ≠ 18 ∧ levels.length ≠ 20 := by omega
    refine h.of_observe (observe_of_odd level (by omega)) (hdata.trans h.data.symm) (by omega) ?_
    simp [hconcat, h.faults, hodd, hne]
  · have hdata := Character.data_concat_of_ne levels level fun i _ => by omega
    have hnone : (Character.faults levels).start = false := by
      simp [Character.faults, List.length_eq_zero_iff.mp hzero]
    refine h.of_observe (observe_of_start level (by omega)) (hdata.trans h.data.symm) (by omega) ?_
    simp [hconcat, h.faults, hzero, hnone]
  · have hdata := Character.data_concat_of_le levels level (Nat.le_of_eq hparity.symm)
    have hnone : (Character.faults levels).parity = false := by simp [Character.faults, ← hparity]
    refine h.of_observe (observe_of_parity level (by omega)) (hdata.trans h.data.symm)
      (by simp only [hparity, paritySlot] at hfilled ⊢; omega) ?_
    simp [hconcat, h.faults, h.data, hparity, hnone, paritySlot, stopSlot]
  · have hdata := Character.data_concat_of_le levels level (by rw [hstop]; decide)
    have hnone : (Character.faults levels).stop = false := by simp [Character.faults, ← hstop]
    refine h.of_observe (observe_of_stop level (by omega)) (hdata.trans h.data.symm)
      (by simp only [hstop, stopSlot] at hfilled ⊢; omega) ?_
    simp [hconcat, h.faults, hstop, hnone, paritySlot, stopSlot]
  · have hi' : s.filled = i := by omega
    have hne : 2 * i ≠ 16 ∧ 2 * i ≠ 18 := by omega
    have hdata := Character.data_concat_of_eq levels level hi hbit
    refine h.of_observe (observe_of_data level hi (by omega)) (by rw [hdata, h.data, hi'])
      (by omega) ?_
    simp [hconcat, h.faults, hbit, hne, paritySlot, stopSlot]

theorem Heard.sample_of_more {levels : List Bool} {s : Sampler} (h : s.Heard levels)
    (more : levels.length + 1 < slotsPerCharacter) (level : Bool) :
    s.sample level = (.ok none, s.take level) := by
  have hslot : s.slot + 1 < slotsPerCharacter := by rwa [h.slot]
  simp only [sample, h.receiving, Bool.not_true, Bool.false_eq_true, ↓reduceIte, hslot]
  rfl

/-- The last level of a character gives what all of them are read as, and nothing of them is
left but what is counted. -/
theorem Heard.sample_of_last {levels : List Bool} {s : Sampler} (h : s.Heard levels)
    (last : levels.length + 1 = slotsPerCharacter) (level : Bool) :
    s.sample level =
      let result := Character.read (levels ++ [level])
      (result.map some, { tally := s.tally.after result }) := by
  have short : levels.length < slotsPerCharacter := by omega
  have htaken := h.take short level
  have hdata : (s.observe level).data = _ := htaken.data
  have hfaults : (s.observe level).faults = _ := htaken.faults
  have hslot : ¬ s.slot + 1 < slotsPerCharacter := by rw [h.slot]; omega
  simp only [sample, h.receiving, Bool.not_true, Bool.false_eq_true, ↓reduceIte, hslot, hdata,
    hfaults, Character.read, reset, tally_observe]
  split <;> rfl

theorem heard_armed (tally : Tally) : Heard [] { receiving := true, tally } :=
  ⟨rfl, rfl, rfl, rfl, rfl⟩

/-- The states that a sampler gets into. -/
inductive Reachable : Sampler → Prop where
  | fresh : Reachable {}
  | arm {s : Sampler} : Reachable s → Reachable s.arm.2
  | sample {s : Sampler} (level : Bool) : Reachable s → Reachable (s.sample level).2
  | reset {s : Sampler} : Reachable s → Reachable s.reset

/-- Whatever was called before, a sampler that expects no character holds nothing of an earlier
one, and one that does holds what the levels since it was armed tell. -/
theorem Reachable.heard {s : Sampler} (h : s.Reachable) :
    s = { tally := s.tally } ∨
      ∃ levels : List Bool, levels.length < slotsPerCharacter ∧ s.Heard levels := by
  induction h with
  | fresh => exact .inl rfl
  | @arm s _ ih =>
    rcases ih with hidle | ⟨levels, short, h⟩
    · rw [hidle]
      exact .inr ⟨[], by decide, heard_armed s.tally⟩
    · rw [Sampler.arm, if_pos h.receiving]
      exact .inr ⟨levels, short, h⟩
  | @sample s level _ ih =>
    rcases ih with hidle | ⟨levels, short, h⟩
    · rw [hidle]
      exact .inl rfl
    · by_cases more : levels.length + 1 < slotsPerCharacter
      · rw [h.sample_of_more more]
        exact .inr ⟨levels ++ [level], by simpa using more, h.take short level⟩
      · rw [h.sample_of_last (by omega)]
        exact .inl rfl
  | reset _ _ => exact .inl rfl

theorem Reachable.of_idle {s : Sampler} (h : s.Reachable) (idle : s.receiving = false) :
    s = { tally := s.tally } := by
  rcases h.heard with hidle | ⟨levels, -, hheard⟩
  · exact hidle
  · rw [hheard.receiving] at idle
    cases idle

end Sampler

end TwoWire
