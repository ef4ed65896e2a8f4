import Mathlib.Data.List.DropRight
import TwoWire.SharedLine

/-! What a line remembers of its traffic: the latest bytes, as many as it was told to, over
any history of writes by any connections and of anything else that is done to the line. -/

namespace TwoWire

namespace SharedLine

inductive Move where
  | attach
  | connect (node : Nat) (buffer : ByteQueue)
  | drive (node : Nat) (on : Bool)
  | write (node : Nat) (bytes : List UInt8)
  | release (node : Nat)
  | setShorted (on : Bool)
  /-- What the owner of a receive buffer leaves in it. -/
  | setBuffer (node : Nat) (q : ByteQueue)

/-- A line with all writes to it and what came of each. -/
structure Traffic where
  line : SharedLine
  writes : List (List UInt8 × Except LinkError Unit) := []

namespace Traffic

def step (t : Traffic) : Move → Traffic
  | .attach => { t with line := t.line.attach.2 }
  | .connect node buffer => { t with line := (t.line.connect node buffer).2 }
  | .drive node on => { t with line := (t.line.drive node on).2 }
  | .write node bytes =>
    let (result, line) := t.line.write node bytes
    { line, writes := t.writes ++ [(bytes, result)] }
  | .release node => { t with line := (t.line.release node).2 }
  | .setShorted on => { t with line := t.line.setShorted on }
  | .setBuffer node q => { t with line := (SharedLine.buffer node).set q t.line }

def run (limit : Nat) (moves : List Move) : Traffic :=
  moves.foldl step { line := .withTranscript limit }

/-- The bytes of all writes that went through. -/
def carried (t : Traffic) : List UInt8 :=
  t.writes.flatMap fun (bytes, result) =>
    match result with
    | .ok () => bytes
    | .error _ => []

end Traffic

/-- Remembering goes on from any past: the latest bytes of it and some more bytes give the latest
bytes of both together. -/
theorem remember_eq_rtake {past : List UInt8} {l : SharedLine}
    (h : l.transcript = past.rtake l.limit) (bytes : List UInt8) :
    l.remember bytes = (past ++ bytes).rtake l.limit := by
  rw [remember_eq, overflow]
  by_cases hlimit : l.limit = 0
  · rw [if_pos hlimit, h, hlimit, List.rtake_zero, List.rtake_zero]
  · rw [if_neg hlimit, h]
    simp only [List.rtake, List.drop_drop, List.length_drop, List.length_append, List.drop_append]
    have hbytes : bytes.length - min bytes.length l.limit =
        past.length + bytes.length - l.limit - past.length := by omega
    rw [hbytes]
    by_cases hlong : bytes.length ≤ l.limit
    · have hpast : past.length - l.limit +
          (past.length - (past.length - l.limit) + min bytes.length l.limit - l.limit) =
            past.length + bytes.length - l.limit := by omega
      rw [hpast]
    · -- Nothing of the past is left.
      have hkept : past.length ≤ past.length - l.limit +
          (past.length - (past.length - l.limit) + min bytes.length l.limit - l.limit) := by omega
      have hgone : past.length ≤ past.length + bytes.length - l.limit := by omega
      rw [List.drop_eq_nil_of_le hkept, List.drop_eq_nil_of_le hgone]

namespace Traffic

/-- A line remembers the latest bytes of what went through, and counts them all. -/
structure Remembered (limit : Nat) (t : Traffic) : Prop where
  limit_eq : t.line.limit = limit
  transcript_eq : t.line.transcript = t.carried.rtake limit
  counted : t.line.bytesWritten = t.carried.length.toUInt64

variable {limit : Nat} {t : Traffic}

theorem carried_write (t : Traffic) (node : Nat) (bytes : List UInt8) :
    (t.step (.write node bytes)).carried =
      t.carried ++ if t.line.shorted then [] else bytes := by
  by_cases hs : t.line.shorted <;> simp [carried, step, SharedLine.write, hs]

theorem Remembered.silent (h : t.Remembered limit) {line : SharedLine}
    (hlimit : line.limit = t.line.limit) (transcript : line.transcript = t.line.transcript)
    (count : line.bytesWritten = t.line.bytesWritten) : Remembered limit { t with line } :=
  ⟨hlimit.trans h.limit_eq, transcript.trans h.transcript_eq, count.trans h.counted⟩

theorem Remembered.write (h : t.Remembered limit) (node : Nat) (bytes : List UInt8) :
    (t.step (.write node bytes)).Remembered limit := by
  have hcarried := t.carried_write node bytes
  by_cases hs : t.line.shorted
  · have hline : (t.step (.write node bytes)).line = t.line := by
      simp [step, SharedLine.write, hs]
    rw [if_pos hs, List.append_nil] at hcarried
    exact ⟨by rw [hline, h.limit_eq], by rw [hline, hcarried, h.transcript_eq],
      by rw [hline, hcarried, h.counted]⟩
  · have hpast : t.line.transcript = t.carried.rtake t.line.limit := by
      rw [h.limit_eq, h.transcript_eq]
    have hafter := remember_eq_rtake hpast bytes
    rw [if_neg hs] at hcarried
    refine ⟨?_, ?_, ?_⟩
    · simpa [step, SharedLine.write, hs] using h.limit_eq
    · rw [hcarried, ← h.limit_eq, ← hafter]
      simp [step, SharedLine.write, hs]
    · rw [hcarried, List.length_append, Nat.toUInt64_eq, UInt64.ofNat_add, ← Nat.toUInt64_eq,
        ← h.counted]
      simp [step, SharedLine.write, hs]

theorem Remembered.step (h : t.Remembered limit) (move : Move) :
    (t.step move).Remembered limit := by
  cases move with
  | attach => exact h.silent rfl rfl rfl
  | connect node buffer =>
    have hline : ∀ {l : SharedLine}, (l.connect node buffer).2.limit = l.limit ∧
        (l.connect node buffer).2.transcript = l.transcript ∧
          (l.connect node buffer).2.bytesWritten = l.bytesWritten := by
      intro l
      unfold connect
      split
      · exact ⟨rfl, rfl, rfl⟩
      · split <;> exact ⟨rfl, rfl, rfl⟩
    exact h.silent hline.1 hline.2.1 hline.2.2
  | drive node on => exact h.silent rfl rfl rfl
  | write node bytes => exact h.write node bytes
  | release node => exact h.silent rfl rfl rfl
  | setShorted on => exact h.silent rfl rfl rfl
  | setBuffer node q => exact h.silent rfl rfl rfl

theorem Remembered.run (limit : Nat) (moves : List Move) : (run limit moves).Remembered limit := by
  have hfrom : ∀ t : Traffic, t.Remembered limit →
      (moves.foldl Traffic.step t).Remembered limit := by
    induction moves with
    | nil => exact fun _ h => h
    | cons move rest ih => exact fun t h => ih (t.step move) (h.step move)
  exact hfrom _ ⟨rfl, List.drop_nil.symm, rfl⟩

/-- Whoever writes what, with the line shorted in between or not, the transcript is the latest
bytes of all that went through, up to the limit and oldest first, and that much was written. No
write drops more than there is: what it stores is what the checked steps give. -/
theorem transcript_law (limit : Nat) (moves : List Move) :
    let t := run limit moves
    let all := t.carried
    t.line.transcript = all.drop (all.length - limit) ∧
      t.line.transcript.length = min limit all.length ∧
      t.line.bytesWritten = all.length.toUInt64 ∧
      (all.length < UInt64.size → t.line.bytesWritten.toNat = all.length) ∧
      ∀ node bytes,
        ((t.line.write node bytes).1 = .ok () ↔ t.line.shorted = false) ∧
          ((t.line.write node bytes).1 ≠ .ok () → (t.line.write node bytes).2 = t.line) ∧
          ((t.line.write node bytes).1 = .ok () →
            t.line.remember? bytes = some (t.line.write node bytes).2.transcript) ∧
          t.line.overflow bytes ≤ t.line.transcript.length ∧
          t.line.remember? bytes = some (t.line.remember bytes) := by
  intro t all
  have h : t.Remembered limit := Remembered.run limit moves
  have htranscript : t.line.transcript = all.drop (all.length - limit) := h.transcript_eq
  have hchecked (bytes : List UInt8) : t.line.remember? bytes = some (t.line.remember bytes) :=
    (Option.some_get (t.line.isSome_remember? bytes)).symm
  refine ⟨htranscript, ?_, h.counted, fun few => ?_, fun node bytes => ⟨?_, fun refused => ?_,
    fun taken => ?_, t.line.overflow_le bytes, hchecked bytes⟩⟩
  · rw [htranscript, List.length_drop]
    omega
  · rw [h.counted, Nat.toUInt64_eq]
    exact UInt64.toNat_ofNat_of_lt' few
  · by_cases hs : t.line.shorted <;> simp [SharedLine.write, hs]
  · by_cases hs : t.line.shorted
    · simp [SharedLine.write, hs]
    · simp [SharedLine.write, hs] at refused
  · by_cases hs : t.line.shorted
    · simp [SharedLine.write, hs] at taken
    · simp [SharedLine.write, hs, hchecked]

/-- Writes that are short, empty, cut off by a shorted line, longer than the limit, and such that
the transcript is just full. -/
theorem transcript_law_wrapping :
    let moves : List Move := [.attach, .write 0 [1, 2, 3], .write 1 [4, 5], .setShorted true,
      .write 0 [9, 9], .setShorted false, .write 0 [], .write 0 [6, 7, 8, 9, 10, 11], .attach,
      .write 1 [12], .write 0 [13, 14, 15]]
    let t := run 4 moves
    t.carried.length = 15 ∧ t.carried.length < UInt64.size ∧
      t.line.transcript = [12, 13, 14, 15] ∧ t.line.bytesWritten.toNat = 15 ∧
      t.line.remember? [16, 17] = some [14, 15, 16, 17] ∧
      (t.line.write 0 [16, 17]).1 = .ok () ∧
      (t.line.write 0 [16, 17]).2.transcript = [14, 15, 16, 17] := by
  intro moves
  have hcarried : (run 4 moves).carried = [1, 2, 3, 4, 5, 6, 7, 8, 9, 10, 11, 12, 13, 14, 15] := by
    decide +kernel
  have hremembered : (run 4 moves).line.remember [16, 17] = [14, 15, 16, 17] := by decide +kernel
  obtain ⟨htranscript, -, -, hcount, hwrite⟩ := transcript_law 4 moves
  obtain ⟨htaken, -, hstored, -, hchecked⟩ := hwrite 0 [16, 17]
  have hok : ((run 4 moves).line.write 0 [16, 17]).1 = .ok () := htaken.mpr (by decide +kernel)
  rw [hremembered] at hchecked
  have hlatest := Option.some.inj (hchecked.symm.trans (hstored hok))
  rw [hcarried] at htranscript hcount
  have few : (run 4 moves).carried.length < UInt64.size := by
    rw [hcarried]
    decide
  exact ⟨congrArg List.length hcarried, few, htranscript, hcount (by decide), hchecked, hok,
    hlatest.symm⟩

end Traffic

end SharedLine

end TwoWire
