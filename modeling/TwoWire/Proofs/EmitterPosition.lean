import Mathlib.Data.List.DropRight
import TwoWire.Proofs.CharacterCheck
import TwoWire.Character.Emitter

/-! Where an emitter stands. However often it is asked for a level, and whatever is read back
and when, its place is told by the calls alone: it has moved on once for every reading that
came after a level. -/

namespace TwoWire

namespace Character

theorem length_flatMap_levels (data : List UInt8) :
    (data.flatMap levels).length = slotsPerCharacter * data.length := by
  induction data with
  | nil => rfl
  | cons value rest ih =>
    rw [List.flatMap_cons, List.length_append, length_levels, ih, List.length_cons, Nat.mul_succ,
      Nat.add_comm]

/-- Place `k` of a transmission is a slot of one of its characters. -/
theorem getElem?_flatMap_levels (data : List UInt8) (k : Nat) :
    (data.flatMap levels)[k]? =
      data[k / slotsPerCharacter]?.map fun value => level value (k % slotsPerCharacter) := by
  induction data generalizing k with
  | nil => rfl
  | cons value rest ih =>
    rw [List.flatMap_cons]
    by_cases hk : k < slotsPerCharacter
    · rw [List.getElem?_append_left (by rwa [length_levels]), getElem?_levels value hk,
        Nat.div_eq_of_lt hk, Nat.mod_eq_of_lt hk]
      rfl
    · obtain ⟨j, rfl⟩ : ∃ j, k = j + slotsPerCharacter := ⟨k - slotsPerCharacter, by omega⟩
      rw [List.getElem?_append_right (by rw [length_levels]; omega), length_levels,
        Nat.add_sub_cancel, ih, Nat.add_div_right _ (by decide), Nat.add_mod_right]
      rfl

theorem testBit_word (levels : List Bool) {i : Nat} (h : i < 32) :
    (word levels).toNat.testBit i = levels.getD i false := by
  induction levels generalizing i with
  | nil => simp [word]
  | cons first rest ih =>
    have hword : (word (first :: rest)).toNat =
        (2 * (word rest).toNat + first.toNat) % 2 ^ 32 := by
      rw [word, List.foldr_cons]
      cases first <;> simp [word]
    rw [hword, Nat.testBit_mod_two_pow, decide_eq_true h, Bool.true_and]
    cases i with
    | zero => cases first <;> simp
    | succ i =>
      have hhalf : (2 * (word rest).toNat + first.toNat) / 2 = (word rest).toNat := by
        have hbit := first.toNat_lt
        omega
      rw [Nat.testBit_succ, hhalf, ih (Nat.lt_of_succ_lt h)]
      rfl

end Character

namespace Emitter

inductive Move where
  | next
  | readBack (sampled : Bool)

/-- A call with its answer. -/
inductive Call where
  | next (answer : Option Bool)
  | readBack (sampled : Bool) (answer : Except SignalError Unit)

namespace Call

def isReading : Call → Bool
  | next _ => false
  | readBack _ _ => true

def gaveLevel : Call → Bool
  | next answer => answer.isSome
  | readBack _ _ => false

end Call

/-- Whether a level has been given since the last reading. -/
def awaiting (calls : List Call) : Bool :=
  (calls.rtakeWhile fun call => !call.isReading).any (·.gaveLevel)

/-- How many readings came while one was awaited. -/
def readings (calls : List Call) : Nat :=
  (List.range calls.length).countP fun i =>
    (calls[i]?).any (·.isReading) && awaiting (calls.take i)

theorem awaiting_next (calls : List Call) (answer : Option Bool) :
    awaiting (calls ++ [.next answer]) = (awaiting calls || answer.isSome) := by
  rw [awaiting, List.rtakeWhile_concat]
  simp [Call.isReading, Call.gaveLevel, awaiting]

theorem awaiting_readBack (calls : List Call) (sampled : Bool) (answer : Except SignalError Unit) :
    awaiting (calls ++ [.readBack sampled answer]) = false := by
  rw [awaiting, List.rtakeWhile_concat]
  simp [Call.isReading]

theorem readings_concat (calls : List Call) (call : Call) :
    readings (calls ++ [call]) =
      readings calls + if call.isReading && awaiting calls then 1 else 0 := by
  have hearlier : ∀ i ∈ List.range calls.length,
      (((calls ++ [call])[i]?).any (·.isReading) && awaiting ((calls ++ [call]).take i)) =
        ((calls[i]?).any (·.isReading) && awaiting (calls.take i)) := by
    intro i hi
    have hlt : i < calls.length := List.mem_range.mp hi
    rw [List.getElem?_append_left hlt, List.take_append_of_le_length (Nat.le_of_lt hlt)]
  rw [readings, List.length_append, List.length_singleton, List.range_succ, List.countP_append,
    List.countP_congr fun i hi => Bool.eq_iff_iff.mp (hearlier i hi), List.countP_singleton,
    List.getElem?_concat_length, List.take_left]
  rfl

def standing (data : List UInt8) (k : Nat) (driven : Option Bool) : Emitter where
  bytes := data
  byte := k / slotsPerCharacter
  slot := k % slotsPerCharacter
  driven := driven

section

variable (data : List UInt8) (k : Nat) (driven : Option Bool)

theorem next_standing :
    (standing data k driven).next =
      let level? := (data.flatMap Character.levels)[k]?
      (level?, standing data k (level?.or driven)) := by
  rw [Character.getElem?_flatMap_levels]
  simp only [next, standing]
  cases data[k / slotsPerCharacter]? <;> rfl

theorem advance_standing : (standing data k driven).advance = standing data (k + 1) driven := by
  by_cases hlast : k % slotsPerCharacter + 1 = slotsPerCharacter
  · have hbyte : (k + 1) / slotsPerCharacter = k / slotsPerCharacter + 1 := by
      simp only [slotsPerCharacter] at hlast ⊢
      omega
    have hslot : (k + 1) % slotsPerCharacter = 0 := by
      simp only [slotsPerCharacter] at hlast ⊢
      omega
    refine (if_pos hlast).trans ?_
    simp only [standing, hbyte, hslot]
  · have hbyte : (k + 1) / slotsPerCharacter = k / slotsPerCharacter := by
      simp only [slotsPerCharacter] at hlast ⊢
      omega
    have hslot : (k + 1) % slotsPerCharacter = k % slotsPerCharacter + 1 := by
      simp only [slotsPerCharacter] at hlast ⊢
      omega
    refine (if_neg hlast).trans ?_
    simp only [standing, hbyte, hslot]

theorem readBack_standing (sampled : Bool) :
    (standing data k driven).readBack sampled =
      match driven with
      | none => (.ok (), standing data k none)
      | some level =>
        (checkReadback (k / slotsPerCharacter) (k % slotsPerCharacter) level sampled,
          standing data (k + 1) none) := by
  cases driven with
  | none => rfl
  | some level =>
    simp only [readBack, advance_standing]
    rfl

theorem isDone_standing :
    (standing data k driven).isDone = true ↔ slotsPerCharacter * data.length ≤ k := by
  have hplace : data.length ≤ k / slotsPerCharacter ↔ data.length * slotsPerCharacter ≤ k :=
    Nat.le_div_iff_mul_le (by decide)
  rw [isDone, decide_eq_true_iff, Nat.mul_comm]
  exact hplace

end

/-- An emitter with the calls it has answered, from the first one on. -/
structure Session where
  emitter : Emitter
  calls : List Call := []

namespace Session

def step (s : Session) : Move → Session
  | .next =>
    let (answer, emitter) := s.emitter.next
    { emitter, calls := s.calls ++ [.next answer] }
  | .readBack sampled =>
    let (answer, emitter) := s.emitter.readBack sampled
    { emitter, calls := s.calls ++ [.readBack sampled answer] }

def run (bytes : List UInt8) (moves : List Move) : Session :=
  moves.foldl step { emitter := { bytes } }

/-- The emitter stands where its calls have brought it, with a level driven while one is
awaited, and nothing is awaited past the end. -/
structure Placed (data : List UInt8) (s : Session) : Prop where
  emitter_eq : s.emitter = standing data (readings s.calls)
    (if awaiting s.calls then (data.flatMap Character.levels)[readings s.calls]? else none)
  awaiting_lt : awaiting s.calls = true → readings s.calls < (data.flatMap Character.levels).length
  readings_le : readings s.calls ≤ (data.flatMap Character.levels).length

namespace Placed

variable {data : List UInt8} {s : Session}

theorem empty (data : List UInt8) : Placed data { emitter := { bytes := data } } := by
  have hstart : standing data 0 none = { bytes := data } := by
    rw [standing, Nat.zero_div, Nat.zero_mod]
  exact ⟨hstart.symm, nofun, Nat.zero_le _⟩

theorem next_eq (h : s.Placed data) :
    s.emitter.next =
      let level? := (data.flatMap Character.levels)[readings s.calls]?
      (level?, standing data (readings s.calls)
        (level?.or (if awaiting s.calls then level? else none))) := by
  rw [h.emitter_eq]
  exact next_standing data _ _

theorem readBack_of_idle (h : s.Placed data) (idle : awaiting s.calls = false) (sampled : Bool) :
    s.emitter.readBack sampled = (.ok (), s.emitter) := by
  rw [h.emitter_eq, idle]
  exact readBack_standing data _ none sampled

theorem readBack_of_awaited (h : s.Placed data) (awaited : awaiting s.calls = true) :
    let k := readings s.calls
    ∃ level, (data.flatMap Character.levels)[k]? = some level ∧
      ∀ sampled, s.emitter.readBack sampled =
        (checkReadback (k / slotsPerCharacter) (k % slotsPerCharacter) level sampled,
          standing data (k + 1) none) := by
  intro k
  have hlt : k < (data.flatMap Character.levels).length := h.awaiting_lt awaited
  have hlevel := List.getElem?_eq_getElem hlt
  refine ⟨_, hlevel, fun sampled => ?_⟩
  rw [h.emitter_eq, awaited, if_pos rfl, hlevel]
  exact readBack_standing data k _ sampled

theorem next (h : s.Placed data) : (s.step .next).Placed data := by
  have hreadings (answer : Option Bool) :
      readings (s.calls ++ [.next answer]) = readings s.calls := readings_concat s.calls _
  simp only [step, h.next_eq]
  refine ⟨?_, fun hawaiting => ?_, ?_⟩
  · -- A level asked for once more is the one that is driven already.
    rw [hreadings, awaiting_next]
    cases (data.flatMap Character.levels)[readings s.calls]? <;>
      cases awaiting s.calls <;> rfl
  · rw [awaiting_next, Bool.or_eq_true] at hawaiting
    rw [hreadings]
    rcases hawaiting with hbefore | hgiven
    · exact h.awaiting_lt hbefore
    · simpa using hgiven
  · rw [hreadings]
    exact h.readings_le

theorem readBack (h : s.Placed data) (sampled : Bool) :
    (s.step (.readBack sampled)).Placed data := by
  have hidle (answer : Except SignalError Unit) :
      awaiting (s.calls ++ [.readBack sampled answer]) = true →
        readings (s.calls ++ [.readBack sampled answer]) <
          (data.flatMap Character.levels).length := by
    rw [awaiting_readBack]
    exact nofun
  cases hawaiting : awaiting s.calls with
  | false =>
    have hreadings (answer : Except SignalError Unit) :
        readings (s.calls ++ [.readBack sampled answer]) = readings s.calls := by
      simp [readings_concat, hawaiting]
    have hemitter := h.emitter_eq
    rw [hawaiting] at hemitter
    simp only [step, h.readBack_of_idle hawaiting]
    refine ⟨?_, hidle _, ?_⟩
    · rw [hreadings, awaiting_readBack]
      exact hemitter
    · rw [hreadings]
      exact h.readings_le
  | true =>
    have hreadings (answer : Except SignalError Unit) :
        readings (s.calls ++ [.readBack sampled answer]) = readings s.calls + 1 := by
      simp [readings_concat, hawaiting, Call.isReading]
    obtain ⟨level, -, hread⟩ := h.readBack_of_awaited hawaiting
    simp only [step, hread]
    refine ⟨?_, hidle _, ?_⟩
    · rw [hreadings, awaiting_readBack]
      rfl
    · rw [hreadings]
      exact h.awaiting_lt hawaiting

theorem step (h : s.Placed data) (move : Move) : (s.step move).Placed data := by
  cases move with
  | next => exact h.next
  | readBack sampled => exact h.readBack sampled

theorem run (data : List UInt8) (moves : List Move) : (run data moves).Placed data := by
  have hfrom : ∀ s : Session, s.Placed data → (moves.foldl Session.step s).Placed data := by
    induction moves with
    | nil => exact fun _ h => h
    | cons move rest ih => exact fun s h => ih (s.step move) (h.step move)
  exact hfrom _ (empty data)

end Placed

end Session

/-- Drives at most so many slots of a line that nobody else drives, so that every level reads
back. Gives each level with what came of reading it back. -/
def drive : Nat → Emitter → List (Bool × Except SignalError Unit) × Emitter
  | 0, e => ([], e)
  | slots + 1, e =>
    match e.next with
    | (none, e) => ([], e)
    | (some level, e) =>
      let (verdict, e) := e.readBack level
      let (later, e) := drive slots e
      ((level, verdict) :: later, e)

theorem drive_standing (data : List UInt8) (slots k : Nat) (driven : Option Bool) :
    let left := (data.flatMap Character.levels).drop k
    (drive slots (standing data k driven)).1 = (left.take slots).map (·, .ok ()) ∧
      ∃ driven', (drive slots (standing data k driven)).2 =
        standing data (k + (left.take slots).length) driven' := by
  induction slots generalizing k driven with
  | zero => exact ⟨rfl, driven, rfl⟩
  | succ slots ih =>
    have hnext := next_standing data k driven
    by_cases hk : k < (data.flatMap Character.levels).length
    · have hdrop := List.drop_eq_getElem_cons hk
      rw [List.getElem?_eq_getElem hk] at hnext
      generalize (data.flatMap Character.levels)[k] = level at hdrop hnext
      have hread := readBack_standing data k (some level) level
      obtain ⟨hlevels, driven', hlast⟩ := ih (k + 1) none
      simp only [checkReadback, ↓reduceIte] at hread
      simp only [drive, hnext, Option.some_or, hread, hdrop, List.take_succ_cons, List.map_cons,
        hlevels, hlast, List.length_cons, true_and]
      exact ⟨driven', by rw [Nat.add_right_comm, Nat.add_assoc]⟩
    · have hdone := Nat.le_of_not_lt hk
      rw [List.getElem?_eq_none hdone] at hnext
      simp only [drive, hnext, List.drop_eq_nil_of_le hdone, Option.none_or]
      exact ⟨rfl, driven, rfl⟩

def wordLevel (value : UInt8) (slot : Nat) : Bool :=
  (Character.word (Character.levels value)).toNat.testBit slot

theorem getElem?_levels_eq_word (data : List UInt8) (k : Nat) :
    (data.flatMap Character.levels)[k]? =
      data[k / slotsPerCharacter]?.map (wordLevel · (k % slotsPerCharacter)) := by
  have hslot : k % slotsPerCharacter < 32 :=
    Nat.lt_trans (Nat.mod_lt k (by decide)) (by decide)
  rw [Character.getElem?_flatMap_levels]
  refine congrArg (Option.map · data[k / slotsPerCharacter]?) (funext fun value => ?_)
  rw [wordLevel, Character.testBit_word _ hslot, Character.level]

/-- Whatever has been asked of an emitter and read back to it, it has moved on once for each
reading of a level that it had given, and for nothing else. At its place it gives the level of
that slot of that character, any number of times, until all are out; a reading of that level is
a collision exactly if it differs, and the emitter moves on all the same. So on a clean line it
drives the levels of the characters in order and then ends. -/
theorem position_law (data : List UInt8) (moves : List Move) :
    let s := Session.run data moves
    let e := s.emitter
    let k := readings s.calls
    let total := slotsPerCharacter * data.length
    let level? := data[k / slotsPerCharacter]?.map (wordLevel · (k % slotsPerCharacter))
    e.byte = k / slotsPerCharacter ∧ e.slot = k % slotsPerCharacter ∧ k ≤ total ∧
      e.next.1 = level? ∧ (e.next.1 = none ↔ k = total) ∧
      e.next.2.byte = e.byte ∧ e.next.2.slot = e.slot ∧
      (e.isDone = true ↔ k = total) ∧
      (awaiting s.calls = false → ∀ sampled, e.readBack sampled = (.ok (), e)) ∧
      (awaiting s.calls = true → ∃ level, level? = some level ∧ ∀ sampled,
        let read := e.readBack sampled
        readings (s.step (.readBack sampled)).calls = k + 1 ∧
          read.2.byte = (k + 1) / slotsPerCharacter ∧ read.2.slot = (k + 1) % slotsPerCharacter ∧
          read.1 = if sampled = level then .ok () else
            .error (.collision (k / slotsPerCharacter) (k % slotsPerCharacter) level sampled)) ∧
      ∀ slots,
        let driven := e.drive slots
        driven.1 = (((data.flatMap Character.levels).drop k).take slots).map (·, .ok ()) ∧
          (total ≤ k + slots → driven.2.next.1 = none ∧ driven.2.isDone = true) := by
  intro s e k total level?
  have h : s.Placed data := Session.Placed.run data moves
  have htotal : (data.flatMap Character.levels).length = total :=
    Character.length_flatMap_levels data
  have hlevel : (data.flatMap Character.levels)[k]? = level? := getElem?_levels_eq_word data k
  have hle : k ≤ total := h.readings_le.trans_eq htotal
  obtain ⟨driven, hplace⟩ : ∃ driven, e = standing data k driven := ⟨_, h.emitter_eq⟩
  have hout : total ≤ k ↔ k = total := ⟨Nat.le_antisymm hle, fun hk => hk.ge⟩
  have hnone : level? = none ↔ k = total := by
    rw [← hlevel, List.getElem?_eq_none_iff, htotal, hout]
  have hdone : e.isDone = true ↔ k = total := by
    rw [hplace, isDone_standing, hout]
  obtain ⟨given, hnext⟩ : ∃ given, e.next = (level?, standing data k given) := by
    rw [← hlevel]
    exact ⟨_, h.next_eq⟩
  refine ⟨by rw [hplace]; rfl, by rw [hplace]; rfl, hle, by rw [hnext], by rw [hnext]; exact hnone,
    by rw [hnext, hplace]; rfl, by rw [hnext, hplace]; rfl, hdone, h.readBack_of_idle,
    fun hawaiting => ?_, fun slots => ?_⟩
  · obtain ⟨level, hsome, hread⟩ := h.readBack_of_awaited hawaiting
    refine ⟨level, hlevel.symm.trans hsome, fun sampled => ?_⟩
    have hcount := readings_concat s.calls (.readBack sampled (e.readBack sampled).1)
    rw [hawaiting] at hcount
    refine ⟨hcount, by rw [hread]; rfl, by rw [hread]; rfl, ?_⟩
    rw [hread, checkReadback]
    by_cases hs : level = sampled
    · rw [if_pos hs, if_pos hs.symm]
    · rw [if_neg hs, if_neg (Ne.symm hs)]
  · obtain ⟨hlevels, driven', hlast⟩ := drive_standing data slots k driven
    rw [← hplace] at hlevels hlast
    refine ⟨hlevels, fun enough => ?_⟩
    have hend : total ≤
        k + (((data.flatMap Character.levels).drop k).take slots).length := by
      rw [List.length_take, List.length_drop, htotal]
      omega
    rw [hlast, next_standing, isDone_standing, List.getElem?_eq_none (by rw [htotal]; exact hend)]
    exact ⟨rfl, hend⟩

/-- A reading before any level, 21 slots of which some collide, and then a level that is asked
for twice, read wrongly, and read once more: the first character is out. -/
theorem position_law_out_of_turn :
    let slots := (List.replicate 21 [Move.next, .readBack true]).flatten
    let moves := .readBack true :: slots ++ [.next, .next, .readBack false, .readBack true, .next]
    let s := Session.run [0xA5, 3] moves
    awaiting s.calls = true ∧ readings s.calls = 22 ∧ s.emitter.byte = 1 ∧ s.emitter.slot = 0 ∧
      (s.emitter.readBack true).1 = .error (.collision 1 0 false true) ∧
      (s.emitter.drive 23).1 = (Character.levels 3).map (·, .ok ()) ∧
      (s.emitter.drive 23).2.isDone = true := by
  intro slots moves
  have hawaiting : awaiting (Session.run [0xA5, 3] moves).calls = true := by decide +kernel
  have hreadings : readings (Session.run [0xA5, 3] moves).calls = 22 := by decide +kernel
  have hlow : ([0xA5, 3] : List UInt8)[22 / slotsPerCharacter]?.map
      (wordLevel · (22 % slotsPerCharacter)) = some false := by decide +kernel
  obtain ⟨hbyte, hslot, -, -, -, -, -, -, -, hread, hdrive⟩ := position_law [0xA5, 3] moves
  obtain ⟨level, hlevel, hreads⟩ := hread hawaiting
  obtain ⟨-, -, -, hverdict⟩ := hreads true
  obtain ⟨hdriven, hend⟩ := hdrive 23
  rw [hreadings] at hbyte hslot hlevel hverdict hdriven hend
  rw [hlow] at hlevel
  cases hlevel
  have hdone := (hend (by decide)).2
  generalize Session.run [0xA5, 3] moves = s
    at hawaiting hreadings hbyte hslot hverdict hdriven hdone ⊢
  exact ⟨hawaiting, hreadings, hbyte, hslot, hverdict, hdriven, hdone⟩

end Emitter

end TwoWire
