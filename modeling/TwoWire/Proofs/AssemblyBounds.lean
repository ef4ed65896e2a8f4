import TwoWire.Proofs.StreamReading

/-! An assembler stays inside its storage, and no bytes can keep it inside a frame for
longer than the bound allows: the frame in progress grows with every byte that does not
end it, and it is never as long as a header and the bound together. -/

namespace TwoWire

namespace Assembler

theorem Sound.length_pending_lt {a : Assembler} (h : a.Sound) :
    a.pending.length < headerSize + a.bound := by
  cases hp : a.phase with
  | payload =>
    have hlt := h.cursor_lt hp
    have hle := h.length_le hp
    simp only [pending, hp, List.length_append, Header.length_bytes, List.length_take]
    omega
  | source | destination | opCode | length =>
    simp only [pending, hp, List.length_nil, List.length_cons, headerSize]
    omega

theorem length_pending_pos {a : Assembler} (busy : a.phase ≠ .source) : 0 < a.pending.length := by
  cases hp : a.phase with
  | source => exact absurd hp busy
  | destination | opCode | length => simp [pending, hp]
  | payload =>
    simp only [pending, hp, List.length_append, Header.length_bytes, headerSize]
    omega

theorem Sound.passes_idle {a : Assembler} (h : a.Sound) {bytes : List UInt8}
    (enough : headerSize + a.bound ≤ a.pending.length + bytes.length) :
    ∃ k ≤ bytes.length, (a.feedAll (bytes.take k)).2.phase = .source := by
  induction bytes generalizing a with
  | nil =>
    have hlt := h.length_pending_lt
    simp only [List.length_nil] at enough
    omega
  | cons byte rest ih =>
    have ended (idle : (a.feed byte).2.phase = .source) :
        ∃ k ≤ (byte :: rest).length, (a.feedAll ((byte :: rest).take k)).2.phase = .source :=
      ⟨1, Nat.succ_le_succ (Nat.zero_le _), idle⟩
    have hfed := h.feed byte
    generalize hresult : a.feed byte = fed at hfed
    cases hfed with
    | frame _ _ idle => exact ended (by rw [hresult]; exact idle)
    | refused _ _ idle => exact ended (by rw [hresult]; exact idle)
    | more sound bound_eq pending_eq =>
      -- The byte has joined those in progress, so there is one less to wait for.
      have hlength := congrArg List.length pending_eq
      simp only [List.length_append, List.length_singleton] at hlength
      simp only [List.length_cons] at enough
      obtain ⟨k, hk, hidle⟩ := ih sound (by omega)
      refine ⟨k + 1, Nat.succ_le_succ hk, ?_⟩
      simp only [List.take_succ_cons, Assembler.feedAll, hresult]
      exact hidle

theorem Sound.storage_feed {a : Assembler} (h : a.Sound) (hp : a.phase = .payload)
    (byte : UInt8) : ∃ inside : a.cursor < payloadLimit,
      (a.feed byte).2.storage = a.storage.set a.cursor byte inside := by
  have hlt := h.cursor_lt hp
  have hle := h.length_le hp
  have hbound := h.bound_le
  have inside : a.cursor < payloadLimit := by omega
  have hput : a.storage.setIfInBounds a.cursor byte = a.storage.set a.cursor byte inside := by
    simp [Vector.setIfInBounds, Vector.set, Array.setIfInBounds, inside]
  refine ⟨inside, ?_⟩
  simp only [Assembler.feed, hp]
  split <;> exact hput

/-- The payload of a frame is a front of the storage, as long as the header says. -/
theorem payload_of_feed {a : Assembler} {byte : UInt8} {arrival : Arrival}
    (hframe : (a.feed byte).1 = .ok (some arrival)) :
    arrival.payload = (a.feed byte).2.storage.toList.take arrival.header.length.toNat := by
  cases hp : a.phase with
  | source | destination | opCode => simp [feed, hp] at hframe
  | length =>
    simp only [feed, hp] at hframe
    split at hframe
    · cases hframe
    · split at hframe
      · rename_i hzero
        cases hframe
        simp [hzero]
      · cases hframe
  | payload =>
    by_cases hlast : a.cursor + 1 = a.header.length.toNat
    · simp only [feed, hp, hlast, ↓reduceIte, Except.ok.injEq, Option.some.injEq] at hframe ⊢
      rw [← hframe]
    · simp [feed, hp, hlast] at hframe

theorem feed_of_above {a : Assembler} {byte : UInt8} (hp : a.phase = .length)
    (above : a.bound < byte.toNat) :
    (a.feed byte).1 = .error (.payloadTooLong byte.toNat a.bound) ∧
      (a.feed byte).2.phase = .source ∧ (a.feed byte).2.cursor = 0 := by
  simp [feed, hp, above, reset]

/-- Whatever an assembler has been fed and however often it was reset, it keeps within its
bound and its storage, a frame is as long as it declares, and it is never stuck in one. -/
theorem within_bounds {m : Nat} {a : Assembler} (reached : a.Reachable m) :
    a.bound = min m payloadLimit ∧ a.bound ≤ payloadLimit ∧
      (a.phase ≠ .payload → a.cursor = 0) ∧
      (a.phase = .payload →
        a.cursor < a.header.length.toNat ∧ a.header.length.toNat ≤ a.bound) ∧
      (∀ byte, a.phase = .payload → ∃ inside : a.cursor < payloadLimit,
        (a.feed byte).2.storage = a.storage.set a.cursor byte inside) ∧
      (∀ byte arrival, (a.feed byte).1 = .ok (some arrival) →
        let length := arrival.header.length.toNat
        arrival.payload = (a.feed byte).2.storage.toList.take length ∧
          arrival.payload.length = length ∧ length ≤ a.bound) ∧
      (∀ byte : UInt8, a.phase = .length → a.bound < byte.toNat →
        (a.feed byte).1 = .error (.payloadTooLong byte.toNat a.bound) ∧
          (a.feed byte).2.phase = .source ∧ (a.feed byte).2.cursor = 0) ∧
      (a.phase ≠ .source → ∀ bytes : List UInt8, bytes.length = 3 + a.bound →
        ∃ k ≤ bytes.length, (a.feedAll (bytes.take k)).2.phase = .source) := by
  have h := reached.sound
  refine ⟨reached.bound_eq, h.bound_le, h.cursor_eq, fun hp => ⟨h.cursor_lt hp, h.length_le hp⟩,
    fun byte hp => h.storage_feed hp byte, ?_, fun byte hp above => feed_of_above hp above, ?_⟩
  · intro byte arrival hframe
    have hpayload := payload_of_feed hframe
    have hfed := h.feed byte
    generalize a.feed byte = fed at hfed hframe hpayload ⊢
    cases hfed with
    | more => cases hframe
    | refused => cases hframe
    | frame _ _ _ fits =>
      cases hframe
      obtain ⟨hlength, hle⟩ := fits
      exact ⟨hpayload, hlength.symm, by omega⟩
  · intro busy bytes hbytes
    have hpos := length_pending_pos busy
    exact h.passes_idle (by simp only [headerSize]; omega)

/-- The longest frame, under a bound that is wider than the format allows, before its last
byte and after a refusal: that byte goes into the last place of the storage. -/
theorem within_bounds_last_place :
    let a := ((withBound 200).feedAll ([1, 2, 3, 65, 1, 2, 3, 64] ++ List.replicate 63 7)).2
    a.Reachable 200 ∧ a.bound = 64 ∧ a.phase = .payload ∧ a.cursor = 63 ∧
      (∃ inside : a.cursor < payloadLimit,
        (a.feed 9).2.storage = a.storage.set a.cursor 9 inside) ∧
      (a.feed 9).1.toOption = some (some ⟨⟨1, 2, 3, 64⟩, List.replicate 63 7 ++ [9]⟩) ∧
      ∃ k ≤ 67, (a.feedAll ((List.replicate 67 0).take k)).2.phase = .source := by
  intro a
  have reached : a.Reachable 200 := Reachable.fresh.feedAll _
  obtain ⟨hbound, -, -, -, hstorage, -, -, hidle⟩ := within_bounds reached
  have hphase : a.phase = .payload := by decide +kernel
  have hlength : (List.replicate 67 (0 : UInt8)).length = 3 + a.bound := by
    rw [hbound]
    rfl
  exact ⟨reached, hbound, hphase, by decide +kernel, hstorage 9 hphase, by decide +kernel,
    hidle (by simp [hphase]) _ hlength⟩

end Assembler

end TwoWire
