import TwoWire.Character.Strand
import TwoWire.Proofs.CharacterCheck

/-! A wire on which somebody else pulls the line low, in whatever slots. The sampler keeps
step with the emitter: every character starts low, so no pull can hide a start, and every
character takes as many slots. -/

namespace TwoWire

namespace Sampler

/-- In step with a character of which these levels have come, and idle before the first. -/
def Follows (levels : List Bool) (s : Sampler) : Prop :=
  if levels = [] then s = { tally := s.tally } else s.Heard levels

theorem follows_nil (tally : Tally) : Follows [] { tally } := by
  rw [Follows, if_pos rfl]

theorem Heard.follows {levels : List Bool} {level : Bool} {s : Sampler}
    (h : s.Heard (levels ++ [level])) : s.Follows (levels ++ [level]) := by
  rwa [Follows, if_neg (by simp)]

theorem Follows.slot {levels : List Bool} {s : Sampler} (h : s.Follows levels) :
    s.slot = levels.length ∧ (s.receiving = true ↔ levels.length ≠ 0) := by
  unfold Follows at h
  split at h
  · rename_i hnil
    rw [h, hnil]
    exact ⟨rfl, by simp⟩
  · rename_i hcons
    exact ⟨h.slot, by simp [h.receiving, hcons]⟩

/-- A low level arms a sampler that is idle; afterwards it is in step with the character. -/
theorem Follows.armed {levels : List Bool} {s : Sampler} (h : s.Follows levels) {line : Bool}
    (start : levels = [] → line = false) :
    (if !s.receiving && !line then s.arm.2 else s).Heard levels := by
  unfold Follows at h
  split at h
  · rename_i hnil
    rw [start hnil, h, hnil]
    exact heard_armed s.tally
  · rw [if_neg (by simp [h.receiving])]
    exact h

end Sampler

namespace Strand

/-- The pulls of another node that fall into a character. -/
def pulls (pulled : Nat → Bool) (k : Nat) : Fin slotsPerCharacter → Bool :=
  fun slot => pulled (slotsPerCharacter * k + slot)

/-- What one slot brings if no collision ends the run. -/
def turn (pulled : Bool) (slot : Nat) (s : Strand) : Option (List (Nat × Report) × Strand) :=
  (s.drive pulled).map fun (line, verdict, s) =>
    let (heard, s) := s.hear line
    let hit := match verdict with
      | .ok () => []
      | .error cause => [(slot, Report.collision cause)]
    (hit ++ heard.toList.map (fun result => (slot, .outcome result)), s)

theorem run_succ (pulled : Nat → Bool) (slots slot : Nat) (s : Strand) :
    run pulled false (slots + 1) slot s =
      match s.turn (pulled slot) slot with
      | none => ([], slot, s)
      | some (reports, s) =>
        let (later, last, s) := run pulled false slots (slot + 1) s
        (reports ++ later, last, s) := by
  simp only [run, turn]
  cases s.drive (pulled slot) with
  | none => rfl
  | some driven =>
    obtain ⟨line, verdict, s⟩ := driven
    cases verdict <;> simp

theorem run_append (pulled : Nat → Bool) (slots more slot : Nat) (s : Strand) :
    run pulled false (slots + more) slot s =
      let first := run pulled false slots slot s
      let second := run pulled false more first.2.1 first.2.2
      (first.1 ++ second.1, second.2) := by
  induction slots generalizing slot s with
  | zero => simp [run]
  | succ slots ih =>
    rw [Nat.succ_add, run_succ, run_succ]
    cases hturn : s.turn (pulled slot) slot with
    | none =>
      cases more with
      | zero => rfl
      | succ more => simp [run_succ, hturn]
    | some turned => simp [ih]

section

variable {data : List UInt8} {k : Nat} {value : UInt8} {s : Strand}

theorem drive_eq {slot : Nat} (hvalue : data[k]? = some value)
    (hemitter : s.emitter = { bytes := data, byte := k, slot }) (pull : Bool) :
    s.drive pull =
      some (Character.level value slot && !pull,
        if Character.level value slot && pull then .error (.collision k slot true false)
          else .ok (),
        { s with emitter := s.emitter.advance }) := by
  have hadvance (driven : Option Bool) :
      { Emitter.advance { bytes := data, byte := k, slot, driven } with driven := none } =
        Emitter.advance { bytes := data, byte := k, slot } := by
    unfold Emitter.advance
    split <;> rfl
  simp only [drive, Emitter.next, hemitter, hvalue, Emitter.readBack, hadvance, checkReadback]
  cases Character.level value slot <;> cases pull <;> rfl

theorem hear_of_more {levels : List Bool} {line : Bool} (h : s.sampler.Follows levels)
    (start : levels = [] → line = false) (more : levels.length + 1 < slotsPerCharacter) :
    ∃ sampler : Sampler, s.hear line = (none, { s with sampler }) ∧
      sampler.Follows (levels ++ [line]) := by
  have harmed := h.armed start
  unfold hear
  generalize (if !s.sampler.receiving && !line then s.sampler.arm.2 else s.sampler) = armed
    at harmed
  have htaken := harmed.take (Nat.lt_of_succ_lt more) line
  exact ⟨armed.take line, by simp [harmed.receiving, harmed.sample_of_more more], htaken.follows⟩

theorem hear_of_last {levels : List Bool} {line : Bool} (h : s.sampler.Follows levels)
    (start : levels = [] → line = false) (last : levels.length + 1 = slotsPerCharacter) :
    ∃ sampler : Sampler, s.hear line =
        (some (Character.read (levels ++ [line])), { s with sampler }) ∧
      sampler.Follows [] := by
  have harmed := h.armed start
  unfold hear
  generalize (if !s.sampler.receiving && !line then s.sampler.arm.2 else s.sampler) = armed
    at harmed
  have hsample := harmed.sample_of_last last line
  generalize Character.read (levels ++ [line]) = result at hsample
  refine ⟨{ tally := armed.tally.after result }, ?_, Sampler.follows_nil _⟩
  cases result <;> simp [harmed.receiving, hsample, Except.map]

/-- What a slot of a character brings: a collision where a high level is pulled low, and with
the last slot the outcome. -/
def slotReports (pulled : Nat → Bool) (value : UInt8) (k : Nat) (slot : Fin slotsPerCharacter) :
    List (Nat × Report) :=
  (if slot ∈ Character.struck value (pulls pulled k) then
    [(slotsPerCharacter * k + slot, .collision (.collision k slot true false))] else []) ++
  (if slot.val + 1 = slotsPerCharacter then
    [(slotsPerCharacter * k + slot,
      .outcome (Character.read (Character.onWire value (pulls pulled k))))] else [])

/-- The strand in a slot of a character, with what has come of that on the line. -/
structure Midway (data : List UInt8) (k : Nat) (line : List Bool) (slot : Nat) (s : Strand) :
    Prop where
  emitter : s.emitter = { bytes := data, byte := k, slot }
  sampler : s.sampler.Follows (line.take slot)

theorem turn_eq {pulled : Nat → Bool} {slot : Fin slotsPerCharacter}
    (hvalue : data[k]? = some value)
    (hemitter : s.emitter = { bytes := data, byte := k, slot })
    {heard : Option (Except SignalError UInt8)} {s' : Strand}
    (hhear : Strand.hear (Character.level value slot && !pulls pulled k slot)
      { s with emitter := s.emitter.advance } = (heard, s')) :
    s.turn (pulled (slotsPerCharacter * k + slot)) (slotsPerCharacter * k + slot) =
      some ((if slot ∈ Character.struck value (pulls pulled k) then
          [(slotsPerCharacter * k + slot, .collision (.collision k slot true false))] else []) ++
        heard.toList.map fun result => (slotsPerCharacter * k + slot, .outcome result), s') := by
  have hdrive := drive_eq hvalue hemitter (pulls pulled k slot)
  change s.turn (pulls pulled k slot) _ = _
  simp only [turn, hdrive, Option.map_some, hhear, Character.mem_struck, Bool.and_eq_true]
  by_cases hit : Character.level value slot = true ∧ pulls pulled k slot = true
  · rw [if_pos hit, if_pos hit]
  · rw [if_neg hit, if_neg hit]

theorem turn_of_more {pulled : Nat → Bool} (slot : Fin slotsPerCharacter)
    (hvalue : data[k]? = some value)
    (h : s.Midway data k (Character.onWire value (pulls pulled k)) slot)
    (more : slot.val + 1 < slotsPerCharacter) :
    ∃ s' : Strand, s.turn (pulled (slotsPerCharacter * k + slot)) (slotsPerCharacter * k + slot) =
        some (slotReports pulled value k slot, s') ∧
      s'.Midway data k (Character.onWire value (pulls pulled k)) (slot + 1) := by
  have hlength : ((Character.onWire value (pulls pulled k)).take slot).length = slot := by
    simp [Character.onWire]
  obtain ⟨sampler, hhear, hfollows⟩ :=
    hear_of_more (s := { s with emitter := s.emitter.advance }) h.sampler
      Character.onWire_starts_low (by rwa [hlength])
  rw [← Character.take_onWire] at hfollows
  refine ⟨{ emitter := s.emitter.advance, sampler }, ?_, ?_, hfollows⟩
  · rw [turn_eq hvalue h.emitter hhear, slotReports, if_neg (Nat.ne_of_lt more)]
    rfl
  · rw [h.emitter]
    exact if_neg (Nat.ne_of_lt more)

theorem turn_of_last {pulled : Nat → Bool} (slot : Fin slotsPerCharacter)
    (hvalue : data[k]? = some value)
    (h : s.Midway data k (Character.onWire value (pulls pulled k)) slot)
    (last : slot.val + 1 = slotsPerCharacter) (next : List Bool) :
    ∃ s' : Strand, s.turn (pulled (slotsPerCharacter * k + slot)) (slotsPerCharacter * k + slot) =
        some (slotReports pulled value k slot, s') ∧
      s'.Midway data (k + 1) next 0 := by
  have hlength : ((Character.onWire value (pulls pulled k)).take slot).length = slot := by
    simp [Character.onWire]
  obtain ⟨sampler, hhear, hfollows⟩ :=
    hear_of_last (s := { s with emitter := s.emitter.advance }) h.sampler
      Character.onWire_starts_low (by rwa [hlength])
  have hwhole : (Character.onWire value (pulls pulled k)).take (slot + 1) =
      Character.onWire value (pulls pulled k) := by
    rw [last]
    exact List.take_of_length_le (by simp [Character.onWire])
  rw [← Character.take_onWire, hwhole] at hhear
  refine ⟨{ emitter := s.emitter.advance, sampler }, ?_, ?_, hfollows⟩
  · rw [turn_eq hvalue h.emitter hhear, slotReports, if_pos last]
    rfl
  · rw [h.emitter]
    exact if_pos last

theorem run_concat {pulled : Nat → Bool} {slots slot last : Nat}
    {reports more : List (Nat × Report)} {s₁ s₂ : Strand}
    (h : run pulled false slots slot s = (reports, last, s₁))
    (hturn : s₁.turn (pulled last) last = some (more, s₂)) :
    run pulled false (slots + 1) slot s = (reports ++ more, last + 1, s₂) := by
  have hone : run pulled false 1 last s₁ = (more, last + 1, s₂) := by
    rw [run_succ, hturn]
    simp [run]
  rw [run_append, h]
  simp [hone]

theorem run_within (pulled : Nat → Bool) (hvalue : data[k]? = some value)
    (h : s.Midway data k (Character.onWire value (pulls pulled k)) 0) (slots : Nat)
    (within : slots < slotsPerCharacter) :
    ∃ s' : Strand, run pulled false slots (slotsPerCharacter * k) s =
        (((List.finRange slotsPerCharacter).take slots).flatMap (slotReports pulled value k),
          slotsPerCharacter * k + slots, s') ∧
      s'.Midway data k (Character.onWire value (pulls pulled k)) slots := by
  induction slots with
  | zero => exact ⟨s, by simp [run], h⟩
  | succ slots ih =>
    have hlt : slots < slotsPerCharacter := Nat.lt_of_succ_lt within
    obtain ⟨s₁, hrun, hmidway⟩ := ih hlt
    obtain ⟨s₂, hturn, hnext⟩ := turn_of_more ⟨slots, hlt⟩ hvalue hmidway within
    refine ⟨s₂, ?_, hnext⟩
    rw [run_concat hrun hturn, List.take_add_one, List.flatMap_append]
    simp [hlt, Nat.add_assoc]

def characterReports (pulled : Nat → Bool) (value : UInt8) (k : Nat) : List (Nat × Report) :=
  (List.finRange slotsPerCharacter).flatMap (slotReports pulled value k)

/-- Whatever is pulled, a character leaves the strand where the next one begins. -/
theorem run_character (pulled : Nat → Bool) (hvalue : data[k]? = some value)
    (h : s.Midway data k (Character.onWire value (pulls pulled k)) 0) (next : List Bool) :
    ∃ s' : Strand, run pulled false slotsPerCharacter (slotsPerCharacter * k) s =
        (characterReports pulled value k, slotsPerCharacter * (k + 1), s') ∧
      s'.Midway data (k + 1) next 0 := by
  obtain ⟨s₁, hrun, hmidway⟩ := run_within pulled hvalue h 21 (by decide)
  obtain ⟨s₂, hturn, hnext⟩ := turn_of_last ⟨21, by decide⟩ hvalue hmidway rfl next
  refine ⟨s₂, ?_, hnext⟩
  have hsplit : List.finRange slotsPerCharacter =
      (List.finRange slotsPerCharacter).take 21 ++ [⟨21, by decide⟩] := by decide
  have hreports := congrArg (List.flatMap (slotReports pulled value k)) hsplit
  rw [List.flatMap_append, List.flatMap_singleton] at hreports
  rw [run_concat hrun hturn, characterReports, hreports]
  simp [Nat.mul_add, Nat.add_assoc]

theorem run_characters (data : List UInt8) (pulled : Nat → Bool) {s : Strand}
    (h : s.Midway data 0 [] 0) {count : Nat} (enough : count ≤ data.length) :
    ∃ s' : Strand, run pulled false (slotsPerCharacter * count) 0 s =
        ((data.take count).zipIdx.flatMap fun (value, k) => characterReports pulled value k,
          slotsPerCharacter * count, s') ∧
      ∀ next, s'.Midway data count next 0 := by
  induction count with
  | zero => exact ⟨s, by simp [run], fun _ => ⟨h.emitter, h.sampler⟩⟩
  | succ count ih =>
    obtain ⟨s₁, hrun, hmidway⟩ := ih (Nat.le_of_succ_le enough)
    have hvalue : data[count]? = some data[count] := List.getElem?_eq_getElem enough
    obtain ⟨s₂, hcharacter, hnext⟩ := run_character pulled hvalue (hmidway _) []
    refine ⟨s₂, ?_, fun _ => ⟨hnext.emitter, hnext.sampler⟩⟩
    rw [Nat.mul_succ, run_append, hrun, List.take_add_one, hvalue, List.zipIdx_append,
      List.flatMap_append]
    simp [hcharacter, Nat.mul_succ, Nat.min_eq_left (Nat.le_of_succ_le enough)]

end

def collisions (reports : List (Nat × Report)) : List (Nat × SignalError) :=
  reports.filterMap fun (slot, report) =>
    match report with
    | .collision cause => some (slot, cause)
    | .outcome _ => none

def outcomes (reports : List (Nat × Report)) : List (Nat × Except SignalError UInt8) :=
  reports.filterMap fun (slot, report) =>
    match report with
    | .collision _ => none
    | .outcome result => some (slot, result)

theorem flatMap_if {α β : Type} (p : α → Prop) [DecidablePred p] (f : α → β) (l : List α) :
    (l.flatMap fun x => if p x then [f x] else []) = (l.filter p).map f := by
  induction l with
  | nil => rfl
  | cons x rest ih =>
    rw [List.flatMap_cons, ih]
    by_cases h : p x <;> simp [h]

/-- What is reported of a slot of a character that is driven high and reads low. -/
def collisionAt (k : Nat) (slot : Fin slotsPerCharacter) : Nat × SignalError :=
  (slotsPerCharacter * k + slot, .collision k slot true false)

theorem collisions_characterReports (pulled : Nat → Bool) (value : UInt8) (k : Nat) :
    collisions (characterReports pulled value k) =
      (Character.struck value (pulls pulled k)).map (collisionAt k) := by
  have hslot : ∀ slot, collisions (slotReports pulled value k slot) =
      if slot ∈ Character.struck value (pulls pulled k) then [collisionAt k slot] else [] := by
    intro slot
    simp only [slotReports, collisions]
    split <;> split <;> rfl
  have hstruck : (List.finRange slotsPerCharacter).filter
      (· ∈ Character.struck value (pulls pulled k)) = Character.struck value (pulls pulled k) := by
    conv => rhs; rw [Character.struck]
    refine List.filter_congr fun slot _ => ?_
    rw [Bool.eq_iff_iff, decide_eq_true_iff, Character.mem_struck, Bool.and_eq_true]
  have hflat : collisions (characterReports pulled value k) =
      (List.finRange slotsPerCharacter).flatMap fun slot =>
        collisions (slotReports pulled value k slot) := List.filterMap_flatMap ..
  simp only [hflat, hslot, flatMap_if, hstruck]

theorem outcomes_characterReports (pulled : Nat → Bool) (value : UInt8) (k : Nat) :
    outcomes (characterReports pulled value k) =
      [(slotsPerCharacter * k + 21,
        Character.read (Character.onWire value (pulls pulled k)))] := by
  have hslot : ∀ slot, outcomes (slotReports pulled value k slot) =
      if slot.val + 1 = slotsPerCharacter then
        [(slotsPerCharacter * k + slot.val,
          Character.read (Character.onWire value (pulls pulled k)))] else [] := by
    intro slot
    simp only [slotReports, outcomes]
    split <;> split <;> rfl
  have hlast : (List.finRange slotsPerCharacter).filter
      (fun slot => slot.val + 1 = slotsPerCharacter) = [⟨21, by decide⟩] := by decide
  have hflat : outcomes (characterReports pulled value k) =
      (List.finRange slotsPerCharacter).flatMap fun slot =>
        outcomes (slotReports pulled value k slot) := List.filterMap_flatMap ..
  simp only [hflat, hslot, flatMap_if, hlast]
  rfl

theorem run_of_done {data : List UInt8} (pulled : Nat → Bool) (slots slot : Nat) {s : Strand}
    (h : s.Midway data data.length [] 0) : run pulled false slots slot s = ([], slot, s) := by
  cases slots with
  | zero => rfl
  | succ slots => simp [run, drive, Emitter.next, h.emitter]

/-- After any number of slots, both sides are in the slot of the character in which that many
slots end. -/
theorem run_aligned {data : List UInt8} (pulled : Nat → Bool) {s : Strand}
    (h : s.Midway data 0 [] 0) {slots : Nat} (enough : slots ≤ slotsPerCharacter * data.length) :
    let after := (run pulled false slots 0 s).2.2
    after.emitter.byte = slots / slotsPerCharacter ∧
      after.emitter.slot = slots % slotsPerCharacter ∧
      after.sampler.slot = slots % slotsPerCharacter ∧
      (after.sampler.receiving = true ↔ slots % slotsPerCharacter ≠ 0) := by
  have hdiv := Nat.div_add_mod slots slotsPerCharacter
  have hmod : slots % slotsPerCharacter < slotsPerCharacter := Nat.mod_lt _ (by decide)
  generalize slots / slotsPerCharacter = k at hdiv ⊢
  generalize slots % slotsPerCharacter = slot at hdiv hmod ⊢
  subst hdiv
  have hk : k ≤ data.length := by
    simp only [slotsPerCharacter] at enough
    omega
  -- So many whole characters come first, and then some slots of the next one.
  obtain ⟨s₁, hrun, hmidway⟩ := run_characters data pulled h hk
  rw [run_append, hrun]
  have haligned {line : List Bool} {s' : Strand} (h' : s'.Midway data k line slot)
      (hline : slot ≤ line.length) : s'.emitter.byte = k ∧ s'.emitter.slot = slot ∧
        s'.sampler.slot = slot ∧ (s'.sampler.receiving = true ↔ slot ≠ 0) := by
    have hsampler := h'.sampler.slot
    rw [List.length_take_of_le hline] at hsampler
    exact ⟨by rw [h'.emitter], by rw [h'.emitter], hsampler⟩
  by_cases hlt : k < data.length
  · have hvalue : data[k]? = some data[k] := List.getElem?_eq_getElem hlt
    obtain ⟨s₂, hwithin, hnext⟩ := run_within pulled hvalue (hmidway _) slot hmod
    simp only [hwithin]
    exact haligned hnext (by simpa [Character.onWire] using Nat.le_of_lt hmod)
  · have hzero : slot = 0 := by
      simp only [slotsPerCharacter] at enough
      omega
    subst hzero
    exact haligned (hmidway []) (Nat.zero_le _)

/-- Interference does not go unnoticed. Whatever is pulled, every character has its slots and
its one outcome, which is a matter of that character alone; the collisions are reported that
there are; and a byte that comes out wrong comes with one. -/
theorem interference (data : List UInt8) (pulled : Nat → Bool) {sampler : Sampler}
    (reached : sampler.Reachable) (idle : sampler.receiving = false) {slots : Nat}
    (enough : slotsPerCharacter * data.length ≤ slots) :
    let start : Strand := { emitter := { bytes := data }, sampler }
    let sent := run pulled false slots 0 start
    sent.2.1 = slotsPerCharacter * data.length ∧ sent.2.2.emitter.isDone = true ∧
      collisions sent.1 = (data.zipIdx.flatMap fun (value, k) =>
        (Character.struck value (pulls pulled k)).map (collisionAt k)) ∧
      outcomes sent.1 = (data.zipIdx.map fun (value, k) => (slotsPerCharacter * k + 21,
        Character.read (Character.onWire value (pulls pulled k)))) ∧
      (∀ n ≤ slotsPerCharacter * data.length,
        let after := (run pulled false n 0 start).2.2
        after.emitter.byte = n / slotsPerCharacter ∧
          after.emitter.slot = n % slotsPerCharacter ∧
          after.sampler.slot = n % slotsPerCharacter ∧
          (after.sampler.receiving = true ↔ n % slotsPerCharacter ≠ 0)) ∧
      ∀ k value, data[k]? = some value →
        let struck := Character.struck value (pulls pulled k)
        let outcome := Character.read (Character.onWire value (pulls pulled k))
        (struck = [] → outcome = .ok value) ∧
          (struck.length = 1 → ∃ byte faults, outcome = .error (.badCharacter byte faults)) ∧
          ∀ byte, outcome = .ok byte → byte ≠ value →
            ∃ slot, collisionAt k slot ∈ collisions sent.1 := by
  intro start sent
  have hclean : start.sampler = { tally := sampler.tally } := reached.of_idle idle
  have hstart : start.Midway data 0 [] 0 := ⟨rfl, hclean ▸ Sampler.follows_nil _⟩
  obtain ⟨last, hrun, hmidway⟩ := run_characters data pulled hstart (Nat.le_refl _)
  obtain ⟨extra, rfl⟩ := Nat.exists_eq_add_of_le enough
  have hsent : sent = (data.zipIdx.flatMap fun (value, k) => characterReports pulled value k,
      slotsPerCharacter * data.length, last) := by
    simp only [sent, run_append, hrun, run_of_done pulled extra _ (hmidway []), List.append_nil,
      List.take_length]
  have hcollisions : collisions sent.1 = data.zipIdx.flatMap fun (value, k) =>
      (Character.struck value (pulls pulled k)).map (collisionAt k) := by
    simp only [hsent, collisions, List.filterMap_flatMap]
    exact congrArg (List.flatMap · data.zipIdx)
      (funext fun (value, k) => collisions_characterReports pulled value k)
  have houtcomes : outcomes sent.1 = data.zipIdx.map fun (value, k) =>
      (slotsPerCharacter * k + 21, Character.read (Character.onWire value (pulls pulled k))) := by
    rw [List.map_eq_flatMap]
    simp only [hsent, outcomes, List.filterMap_flatMap]
    exact congrArg (List.flatMap · data.zipIdx)
      (funext fun (value, k) => outcomes_characterReports pulled value k)
  refine ⟨by rw [hsent], ?_, hcollisions, houtcomes, fun n hn => run_aligned pulled hstart hn,
    fun k value hvalue => ⟨fun hnone => ?_, fun hone => ?_, fun byte hbyte hne => ?_⟩⟩
  · rw [hsent]
    simp [Emitter.isDone, (hmidway []).emitter]
  · -- Where nothing is struck the line is as driven, so the byte itself is read.
    rw [Character.onWire_of_not_struck hnone]
    exact Character.read_levels value
  · obtain ⟨slot, hslot⟩ := List.length_eq_one_iff.mp hone
    exact Character.read_of_struck_once hslot
  · cases hstruck : Character.struck value (pulls pulled k) with
    | nil =>
      rw [Character.onWire_of_not_struck hstruck, Character.read_levels] at hbyte
      exact absurd (Except.ok.inj hbyte).symm hne
    | cons slot rest =>
      refine ⟨slot, ?_⟩
      rw [hcollisions]
      refine List.mem_flatMap.mpr ⟨(value, k), List.mem_zipIdx_iff_getElem?.mpr hvalue, ?_⟩
      exact List.mem_map_of_mem (hstruck ▸ List.mem_cons_self)

/-- A low slot that is pulled does not matter; one high slot that is pulled spoils the second
character; and two in the third make another byte of it, but not in silence. -/
theorem interference_three :
    let data : List UInt8 := [0x42, 0xA5, 0x03]
    let pulled : Nat → Bool := [0, 25, 46, 48].contains
    let sampler := (({} : Sampler).arm.2.sample true).2.reset
    let sent := run pulled false 80 0 { emitter := { bytes := data }, sampler }
    sampler.Reachable ∧ sampler.receiving = false ∧ slotsPerCharacter * data.length ≤ 80 ∧
      sent.2.1 = 66 ∧
      collisions sent.1 = [(25, .collision 1 3 true false), (46, .collision 2 2 true false),
        (48, .collision 2 4 true false)] ∧
      outcomes sent.1 = [(21, .ok 0x42), (43, .error (.badCharacter 0xA5 { gap := true })),
        (65, .ok 0)] := by
  intro data pulled sampler
  have reached : sampler.Reachable := .reset (.sample true (.arm .fresh))
  have enough : slotsPerCharacter * data.length ≤ 80 := by decide
  obtain ⟨hlast, -, hcollisions, houtcomes, -⟩ := interference data pulled reached rfl enough
  generalize run pulled false 80 0 { emitter := { bytes := data }, sampler } = sent
    at hlast hcollisions houtcomes ⊢
  refine ⟨reached, rfl, enough, hlast, hcollisions.trans (by decide), houtcomes.trans ?_⟩
  simp only [data, pulled, List.zipIdx_cons, List.zipIdx_nil, List.map_cons, List.map_nil]
  rfl

end Strand

end TwoWire
