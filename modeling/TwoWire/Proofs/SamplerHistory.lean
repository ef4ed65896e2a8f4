import TwoWire.Proofs.CharacterCheck

/-! A sampler over all that is done with it. Which outcome a character has is a matter of
its own levels, those sampled since the start edge that was taken last, and the tally
counts the outcomes that were given. -/

namespace TwoWire

namespace Character

/-- What the data and the faults of a rejected character say about its levels. -/
structure Diagnosed (levels : List Bool) (data : UInt8) (faults : CharacterFaults) : Prop where
  bits : ∀ i < 8, levels[2 * i + 2]? = some (data.toNat.testBit i)
  start : faults.start = true ↔ levels[0]? = some true
  gap : faults.gap = true ↔ ∃ slot, slot % 2 = 1 ∧ levels[slot]? = some false
  stop : faults.stop = true ↔ levels[stopSlot]? = some false
  parity : faults.parity = true ↔ levels[paritySlot]? = some (!parityBit data)

theorem level_stop (value : UInt8) : level value stopSlot = true := rfl

theorem any_iff {level? : Option Bool} {p : Bool → Bool} {bad : Bool}
    (h : ∀ level, p level = true ↔ level = bad) : level?.any p = true ↔ level? = some bad := by
  cases level? with
  | none => simp
  | some level => simp [h]

theorem some_not_of_ne {level? : Option Bool} {bad : Bool} (present : level?.isSome = true)
    (h : level? ≠ some bad) : level? = some (!bad) := by
  cases level? with
  | none => cases present
  | some level => cases level <;> cases bad <;> simp at h ⊢

theorem diagnosed {levels : List Bool} (whole : levels.length = slotsPerCharacter) :
    Diagnosed levels (data levels) (faults levels) where
  bits i hi := by
    have hslot : 2 * i + 2 < levels.length := by
      simp only [whole, slotsPerCharacter]
      omega
    rw [testBit_data levels hi, List.getD_eq_getElem?_getD, List.getElem?_eq_getElem hslot]
    rfl
  start := any_iff fun level => by cases level <;> decide
  gap := gap_iff levels
  stop := any_iff fun level => by cases level <;> decide
  parity := any_iff fun level => by
    cases level <;> cases parityBit (data levels) <;> decide

/-- A character that passes all checks has the levels of its byte. -/
theorem levels_of_isClean {levels : List Bool} (whole : levels.length = slotsPerCharacter)
    (clean : (faults levels).isClean = true) : levels = Character.levels (data levels) := by
  have h := diagnosed whole
  simp only [CharacterFaults.isClean, Bool.not_eq_true', Bool.or_eq_false_iff] at clean
  obtain ⟨⟨⟨hstart, hparity⟩, hstop⟩, hgap⟩ := clean
  refine eq_of_slots whole (length_levels _) fun slot => ?_
  have present : levels[slot.val]?.isSome = true := by simp [whole]
  rw [getElem?_levels _ slot.isLt]
  rcases slot_cases slot.isLt with hodd | hslot | hslot | hslot | ⟨i, hi, hslot⟩
  · have hhigh : levels[slot.val]? ≠ some false := fun hlow =>
      Bool.eq_false_iff.mp hgap (h.gap.mpr ⟨slot, hodd, hlow⟩)
    rw [level_of_odd _ slot.isLt hodd]
    exact some_not_of_ne present hhigh
  · have hlow : levels[0]? ≠ some true := fun hhigh =>
      Bool.eq_false_iff.mp hstart (h.start.mpr hhigh)
    rw [hslot] at present ⊢
    rw [level_start]
    exact some_not_of_ne present hlow
  · have hright : levels[paritySlot]? ≠ some (!parityBit (data levels)) := fun hwrong =>
      Bool.eq_false_iff.mp hparity (h.parity.mpr hwrong)
    rw [hslot] at present ⊢
    rw [level_parity, ← Bool.not_not (parityBit _)]
    exact some_not_of_ne present hright
  · have hhigh : levels[stopSlot]? ≠ some false := fun hlow =>
      Bool.eq_false_iff.mp hstop (h.stop.mpr hlow)
    rw [hslot] at present ⊢
    rw [level_stop]
    exact some_not_of_ne present hhigh
  · rw [hslot, level_data _ hi]
    exact h.bits i hi

theorem read_eq_ok_iff {levels : List Bool} (whole : levels.length = slotsPerCharacter)
    (value : UInt8) : read levels = .ok value ↔ levels = Character.levels value := by
  constructor
  · intro hread
    cases clean : (faults levels).isClean with
    | false => simp [read, clean] at hread
    | true =>
      have hlevels := levels_of_isClean whole clean
      simp only [read, clean, ↓reduceIte, Except.ok.injEq] at hread
      rwa [hread] at hlevels
  · intro hlevels
    rw [hlevels, read_levels]

/-- A character that is not the levels of any byte is rejected with its own diagnosis. -/
theorem read_of_no_byte {levels : List Bool} (whole : levels.length = slotsPerCharacter)
    (none_of_them : ∀ value, levels ≠ Character.levels value) :
    ∃ data faults, read levels = .error (.badCharacter data faults) ∧
      Diagnosed levels data faults := by
  refine ⟨data levels, faults levels, ?_, diagnosed whole⟩
  cases clean : (faults levels).isClean with
  | true => exact absurd (levels_of_isClean whole clean) (none_of_them _)
  | false => simp [read, clean]

end Character

namespace Tally

/-- Whether an outcome failed a check. -/
def fails (check : CharacterFaults → Bool) : Except SignalError UInt8 → Bool
  | .error (.badCharacter _ faults) => check faults
  | _ => false

def count (p : Except SignalError UInt8 → Bool) (outcomes : List (Except SignalError UInt8)) :
    UInt64 :=
  (outcomes.countP p).toUInt64

/-- The counts of some outcomes. -/
def ofOutcomes (outcomes : List (Except SignalError UInt8)) : Tally where
  good := count (·.toBool) outcomes
  bad := count (fails fun _ => true) outcomes
  start := count (fails (·.start)) outcomes
  parity := count (fails (·.parity)) outcomes
  stop := count (fails (·.stop)) outcomes
  gap := count (fails (·.gap)) outcomes

theorem count_concat (p : Except SignalError UInt8 → Bool)
    (outcomes : List (Except SignalError UInt8)) (outcome : Except SignalError UInt8) :
    count p (outcomes ++ [outcome]) = count p outcomes + (p outcome).toUInt64 := by
  simp only [count, List.countP_append, List.countP_singleton, Nat.toUInt64_eq, UInt64.ofNat_add]
  cases p outcome <;> rfl

theorem ofOutcomes_concat (outcomes : List (Except SignalError UInt8)) (levels : List Bool) :
    ofOutcomes (outcomes ++ [Character.read levels]) =
      (ofOutcomes outcomes).after (Character.read levels) := by
  simp only [ofOutcomes, count_concat, Character.read]
  cases (Character.faults levels).isClean with
  | true => simp [Except.toBool, fails, after, countGood, Bool.toUInt64]
  | false => simp [Except.toBool, fails, after, countBad, Bool.toUInt64]

end Tally

namespace Sampler

inductive Move where
  | arm
  | sample (level : Bool)
  | reset

/-- A call with its answer. -/
inductive Call where
  | arm (answer : Except SignalError Unit)
  | sample (level : Bool) (answer : Except SignalError (Option UInt8))
  | reset

/-- The outcome of a character in an answer, if it is one. -/
def Call.outcome? : Call → Option (Except SignalError UInt8)
  | sample _ (.ok value?) => value?.map .ok
  | sample _ (.error (.badCharacter data faults)) => some (.error (.badCharacter data faults))
  | _ => none

def Call.extend (levels : List Bool) : Call → List Bool
  | arm (.ok ()) => []
  | sample level _ => levels ++ [level]
  | arm (.error _) | reset => levels

/-- The levels sampled since a start edge was last taken. -/
def sinceEdge (calls : List Call) : List Bool :=
  calls.foldl Call.extend []

def Call.keepsArmed (before : Bool) : Call → Bool
  | arm (.ok ()) => true
  | arm (.error _) => before
  | sample level answer => before && (sample level answer).outcome?.isNone
  | reset => false

/-- Whether a start edge was taken and since then there was neither an outcome nor a reset. -/
def armed (calls : List Call) : Bool :=
  calls.foldl Call.keepsArmed false

theorem sinceEdge_concat (calls : List Call) (call : Call) :
    sinceEdge (calls ++ [call]) = call.extend (sinceEdge calls) := by
  simp [sinceEdge]

theorem armed_concat (calls : List Call) (call : Call) :
    armed (calls ++ [call]) = call.keepsArmed (armed calls) := by
  simp [armed]

theorem outcome?_read (level : Bool) (levels : List Bool) :
    (Call.sample level ((Character.read levels).map some)).outcome? =
      some (Character.read levels) := by
  unfold Character.read
  split <;> rfl

/-- A sampler with the calls it has answered, from the first one on. -/
structure Session where
  sampler : Sampler := {}
  calls : List Call := []

namespace Session

def step (s : Session) : Move → Session
  | .arm =>
    let (answer, sampler) := s.sampler.arm
    { sampler, calls := s.calls ++ [.arm answer] }
  | .sample level =>
    let (answer, sampler) := s.sampler.sample level
    { sampler, calls := s.calls ++ [.sample level answer] }
  | .reset => { sampler := s.sampler.reset, calls := s.calls ++ [.reset] }

def run (moves : List Move) : Session :=
  moves.foldl step {}

/-- What a sampler holds is what its calls tell. -/
structure Faithful (s : Session) : Prop where
  armed_eq : armed s.calls = s.sampler.receiving
  idle : s.sampler.receiving = false → s.sampler = { tally := s.sampler.tally }
  heard : s.sampler.receiving = true →
    (sinceEdge s.calls).length < slotsPerCharacter ∧ s.sampler.Heard (sinceEdge s.calls)
  tally_eq : s.sampler.tally = Tally.ofOutcomes (s.calls.filterMap Call.outcome?)

namespace Faithful

theorem empty : Faithful {} :=
  ⟨rfl, fun _ => rfl, nofun, rfl⟩

variable {s : Session}

theorem arm (h : s.Faithful) : (s.step .arm).Faithful := by
  have htally : ∀ answer, Tally.ofOutcomes
      ((s.calls ++ [Call.arm answer]).filterMap Call.outcome?) = s.sampler.tally := by
    intro answer
    rw [List.filterMap_append, h.tally_eq]
    exact congrArg _ (List.append_nil _)
  cases hreceiving : s.sampler.receiving with
  | true =>
    have hbusy : s.sampler.arm = (.error .busy, s.sampler) := by simp [Sampler.arm, hreceiving]
    simp only [step, hbusy]
    refine ⟨?_, h.idle, ?_, (htally _).symm⟩
    · rw [armed_concat, h.armed_eq]
      rfl
    · rw [sinceEdge_concat]
      exact h.heard
  | false =>
    have htaken : s.sampler.arm = (.ok (), { receiving := true, tally := s.sampler.tally }) := by
      rw [h.idle hreceiving]
      rfl
    simp only [step, htaken]
    refine ⟨?_, by simp, ?_, (htally _).symm⟩
    · rw [armed_concat]
      rfl
    · rw [sinceEdge_concat]
      exact fun _ => ⟨Nat.zero_lt_succ _, heard_armed _⟩

theorem reset (h : s.Faithful) : (s.step .reset).Faithful := by
  refine ⟨?_, fun _ => rfl, nofun, ?_⟩
  · simp only [step, armed_concat]
    rfl
  · simp only [step, List.filterMap_append]
    exact h.tally_eq.trans (congrArg _ (List.append_nil _).symm)

theorem sample (h : s.Faithful) (level : Bool) : (s.step (.sample level)).Faithful := by
  have hsilent : ∀ answer, (Call.sample level answer).outcome? = none →
      Tally.ofOutcomes ((s.calls ++ [Call.sample level answer]).filterMap Call.outcome?) =
        s.sampler.tally := by
    intro answer hnone
    rw [List.filterMap_append, List.filterMap_cons, hnone, h.tally_eq]
    exact congrArg _ (List.append_nil _)
  cases hreceiving : s.sampler.receiving with
  | false =>
    have hidle : s.sampler.sample level = (.error .idle, s.sampler) := by
      simp [Sampler.sample, hreceiving]
    simp only [step, hidle]
    refine ⟨?_, h.idle, fun hr => ?_, (hsilent (.error .idle) rfl).symm⟩
    · rw [armed_concat, h.armed_eq, hreceiving]
      rfl
    · rw [hreceiving] at hr
      cases hr
  | true =>
    obtain ⟨short, hheard⟩ := h.heard hreceiving
    by_cases more : (sinceEdge s.calls).length + 1 < slotsPerCharacter
    · have htake := hheard.take short level
      have htally : (s.sampler.take level).tally = s.sampler.tally := tally_observe level _
      simp only [step, hheard.sample_of_more more]
      refine ⟨?_, fun hidle => ?_, fun _ => ?_, htally.trans (hsilent (.ok none) rfl).symm⟩
      · rw [armed_concat, h.armed_eq, hreceiving]
        exact htake.receiving.symm
      · rw [htake.receiving] at hidle
        cases hidle
      · rw [sinceEdge_concat]
        exact ⟨by simpa [Call.extend] using more, htake⟩
    · have houtcome := outcome?_read level (sinceEdge s.calls ++ [level])
      simp only [step, hheard.sample_of_last (by omega)]
      generalize hread : Character.read (sinceEdge s.calls ++ [level]) = result at houtcome
      refine ⟨?_, fun _ => rfl, by simp, ?_⟩
      · rw [armed_concat, Call.keepsArmed, houtcome]
        exact Bool.and_false _
      · rw [List.filterMap_append, List.filterMap_cons, houtcome, h.tally_eq, ← hread]
        exact (Tally.ofOutcomes_concat _ _).symm

theorem step (h : s.Faithful) (move : Move) : (s.step move).Faithful := by
  cases move with
  | arm => exact h.arm
  | sample level => exact h.sample level
  | reset => exact h.reset

theorem run (moves : List Move) : (run moves).Faithful := by
  have hfrom : ∀ s : Session, s.Faithful → (moves.foldl Session.step s).Faithful := by
    induction moves with
    | nil => exact fun _ h => h
    | cons move rest ih => exact fun s h => ih (s.step move) (h.step move)
  exact hfrom {} empty

end Faithful

end Session

/-- A data bit never shifts past the last one of a byte. -/
theorem Heard.filled_le {levels : List Bool} {s : Sampler} (h : s.Heard levels)
    (short : levels.length < slotsPerCharacter) (even : s.slot % 2 = 0)
    (parity : s.slot ≠ paritySlot) (stop : s.slot ≠ stopSlot) : s.filled ≤ 7 := by
  have hslot := h.slot
  have hfilled := h.filled
  simp only [slotsPerCharacter, paritySlot, stopSlot] at short parity stop
  omega

theorem Heard.sample_of_whole {levels : List Bool} {s : Sampler} (h : s.Heard levels)
    {level : Bool} (whole : (levels ++ [level]).length = slotsPerCharacter) :
    (s.sample level).1 = (Character.read (levels ++ [level])).map some := by
  rw [h.sample_of_last (by simpa using whole)]

/-- Whatever has been done with a sampler, an outcome comes with the last level of a character
whose start edge was taken, and it is that of the character's own levels: the byte that has
exactly these levels, or else a diagnosis of them. Levels that nobody waits for and edges in
the middle of a character change nothing, and the tally counts the outcomes. -/
theorem outcomes_of_levels (moves : List Move) :
    let s := Session.run moves
    let before := sinceEdge s.calls
    s.sampler.receiving = armed s.calls ∧
      (armed s.calls = false →
        s.sampler.arm = (.ok (), { s.sampler with receiving := true }) ∧
          ∀ level, s.sampler.sample level = (.error .idle, s.sampler)) ∧
      (armed s.calls = true →
        s.sampler.arm = (.error .busy, s.sampler) ∧
          s.sampler.slot = before.length ∧ before.length < slotsPerCharacter ∧
          (s.sampler.slot % 2 = 0 → s.sampler.slot ≠ paritySlot → s.sampler.slot ≠ stopSlot →
            s.sampler.filled ≤ 7) ∧
          ∀ level,
            let levels := before ++ [level]
            let answer := (s.sampler.sample level).1
            (levels.length < slotsPerCharacter → answer = .ok none) ∧
              (levels.length = slotsPerCharacter →
                answer = (Character.read levels).map some ∧
                  (∀ value, answer = .ok (some value) ↔ levels = Character.levels value) ∧
                  ((∀ value, levels ≠ Character.levels value) → ∃ data faults,
                    answer = .error (.badCharacter data faults) ∧
                      Character.Diagnosed levels data faults))) ∧
      s.sampler.tally = Tally.ofOutcomes (s.calls.filterMap Call.outcome?) ∧
      s.sampler.reset = { tally := s.sampler.tally } := by
  intro s before
  have h : s.Faithful := Session.Faithful.run moves
  refine ⟨h.armed_eq.symm, fun hidle => ?_, fun hbusy => ?_, h.tally_eq, rfl⟩
  · rw [h.armed_eq] at hidle
    refine ⟨by simp [arm, hidle], fun level => by simp [sample, hidle]⟩
  · rw [h.armed_eq] at hbusy
    obtain ⟨short, hheard⟩ := h.heard hbusy
    refine ⟨by simp [arm, hbusy], hheard.slot, short, hheard.filled_le short, fun level => ?_⟩
    refine ⟨fun more => ?_, fun whole => ?_⟩
    · rw [hheard.sample_of_more (by simpa using more)]
    · have hanswer := hheard.sample_of_whole whole
      refine ⟨hanswer, fun value => ?_, fun none_of_them => ?_⟩
      · rw [hanswer, ← Character.read_eq_ok_iff whole]
        cases Character.read (before ++ [level]) <;> simp [Except.map]
      · obtain ⟨data, faults, hread, hdiagnosed⟩ := Character.read_of_no_byte whole none_of_them
        exact ⟨data, faults, by rw [hanswer, hread]; rfl, hdiagnosed⟩

/-- A character given up after five levels, a level that nobody waits for, a character with
a low gap, and one with a second edge in the middle: the last of them is read as it is. -/
theorem outcomes_of_levels_after_bad :
    let given_up := Move.arm :: ((Character.levels 0x42).take 5).map Move.sample
    let bad := Move.arm :: ((Character.levels 0xA5).set 3 false).map Move.sample
    let good := [Move.arm, .sample false, .arm] ++ ((Character.levels 3).tail.take 20).map .sample
    let moves := given_up ++ [.reset, .sample false] ++ bad ++ good
    let s := Session.run moves
    armed s.calls = true ∧ sinceEdge s.calls ++ [true] = Character.levels 3 ∧
      (s.sampler.sample true).1 = .ok (some 3) ∧
      s.sampler.tally = { bad := 1, gap := 1 } := by
  intro given_up bad good moves
  have harmed : armed (Session.run moves).calls = true := by decide +kernel
  have hlevels : sinceEdge (Session.run moves).calls ++ [true] = Character.levels 3 := by
    decide +kernel
  have hcounts : Tally.ofOutcomes ((Session.run moves).calls.filterMap Call.outcome?) =
      { bad := 1, gap := 1 } := by decide +kernel
  have whole : (sinceEdge (Session.run moves).calls ++ [true]).length = slotsPerCharacter := by
    rw [hlevels, Character.length_levels]
  obtain ⟨-, -, hbusy, htally, -⟩ := outcomes_of_levels moves
  obtain ⟨-, -, -, -, hsample⟩ := hbusy harmed
  obtain ⟨-, hlast⟩ := hsample true
  obtain ⟨-, hvalue, -⟩ := hlast whole
  have hbyte := (hvalue 3).mpr hlevels
  generalize Session.run moves = s at harmed hlevels hcounts htally hbyte ⊢
  exact ⟨harmed, hlevels, hbyte, htally.trans hcounts⟩

end Sampler

end TwoWire
