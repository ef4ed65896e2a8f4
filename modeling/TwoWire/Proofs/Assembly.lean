import TwoWire.Assembler

/-! The frame in progress as the bytes that have come of it. Everything an assembler
does with a byte is said in terms of them, whatever its storage and its header still
hold of earlier frames. -/

namespace TwoWire

namespace Arrival

def bytes (a : Arrival) : List UInt8 :=
  a.header.bytes ++ a.payload

/-- The declared length is that of the payload and keeps within a bound. -/
def Fits (bound : Nat) (a : Arrival) : Prop :=
  a.header.length.toNat = a.payload.length ∧ a.payload.length ≤ bound

@[simp] theorem length_bytes (a : Arrival) : a.bytes.length = headerSize + a.payload.length := by
  simp [bytes]

end Arrival

namespace Assembler

/-- The bytes of the frame in progress. -/
def pending (a : Assembler) : List UInt8 :=
  match a.phase with
  | .source => []
  | .destination => [a.header.source]
  | .opCode => [a.header.source, a.header.destination]
  | .length => [a.header.source, a.header.destination, a.header.opCode]
  | .payload => a.header.bytes ++ a.storage.toList.take a.cursor

/-- Outside a payload nothing is counted; inside one, the byte that comes next has its
place in a payload that is not longer than allowed. -/
structure Sound (a : Assembler) : Prop where
  bound_le : a.bound ≤ payloadLimit
  cursor_eq : a.phase ≠ .payload → a.cursor = 0
  cursor_lt : a.phase = .payload → a.cursor < a.header.length.toNat
  length_le : a.phase = .payload → a.header.length.toNat ≤ a.bound

/-- The states that an assembler for a given bound gets into. -/
inductive Reachable (bound : Nat) : Assembler → Prop where
  | fresh : Reachable bound (withBound bound)
  | feed {a : Assembler} (byte : UInt8) : Reachable bound a → Reachable bound (a.feed byte).2
  | reset {a : Assembler} : Reachable bound a → Reachable bound a.reset

/-- What one byte can do: it stays without a frame, it is the last byte of one, or it
is a length above the bound. -/
inductive Fed (a : Assembler) (byte : UInt8) :
    Except ParamFault (Option Arrival) × Assembler → Prop where
  | more {a' : Assembler} (sound : a'.Sound) (bound_eq : a'.bound = a.bound)
      (pending_eq : a'.pending = a.pending ++ [byte]) : Fed a byte (.ok none, a')
  | frame {a' : Assembler} {arrival : Arrival} (sound : a'.Sound) (bound_eq : a'.bound = a.bound)
      (idle : a'.phase = .source) (fits : arrival.Fits a.bound)
      (bytes_eq : arrival.bytes = a.pending ++ [byte]) : Fed a byte (.ok (some arrival), a')
  | refused {a' : Assembler} {h : Header} (sound : a'.Sound) (bound_eq : a'.bound = a.bound)
      (idle : a'.phase = .source) (above : a.bound < h.length.toNat)
      (bytes_eq : h.bytes = a.pending ++ [byte]) :
      Fed a byte (.error (.payloadTooLong h.length.toNat a.bound), a')

theorem pending_of_idle {a : Assembler} (h : a.phase = .source) : a.pending = [] := by
  simp [pending, h]

theorem Sound.withBound (bound : Nat) : (withBound bound).Sound :=
  ⟨Nat.min_le_right _ _, fun _ => rfl, nofun, nofun⟩

theorem Sound.reset {a : Assembler} (h : a.Sound) : a.reset.Sound :=
  ⟨h.bound_le, fun _ => rfl, nofun, nofun⟩

theorem Sound.take_storage {a : Assembler} (h : a.Sound) (hp : a.phase = .payload) (byte : UInt8) :
    (a.storage.setIfInBounds a.cursor byte).toList.take (a.cursor + 1) =
      a.storage.toList.take a.cursor ++ [byte] := by
  have hc : a.cursor < a.storage.toList.length := by
    have := h.cursor_lt hp
    have := h.length_le hp
    have := h.bound_le
    simp only [Vector.length_toList]
    omega
  rw [Vector.toList_setIfInBounds, List.take_add_one, List.getElem?_set_self hc,
    List.take_set_of_le (Nat.le_refl _), Option.toList_some]

theorem Sound.feed_payload {a : Assembler} (h : a.Sound) (hp : a.phase = .payload) (byte : UInt8) :
    Fed a byte (a.feed byte) := by
  have hlt := h.cursor_lt hp
  have hle := h.length_le hp
  have htake := h.take_storage hp byte
  have hpending : a.pending = a.header.bytes ++ a.storage.toList.take a.cursor := by
    simp [pending, hp]
  by_cases hlast : a.cursor + 1 = a.header.length.toNat
  · have hlength : (a.storage.toList.take a.cursor ++ [byte]).length = a.header.length.toNat := by
      rw [← htake, List.length_take, Vector.length_toList]
      have := h.bound_le
      omega
    simp only [feed, hp, hlast, ↓reduceIte]
    refine .frame ⟨h.bound_le, fun _ => rfl, nofun, nofun⟩ rfl rfl ?_ ?_
    · rw [← hlast, htake]
      exact ⟨hlength.symm, hlength ▸ hle⟩
    · rw [← hlast, htake, hpending, Arrival.bytes, List.append_assoc]
  · simp only [feed, hp, hlast, ↓reduceIte]
    refine .more ⟨h.bound_le, by simp, fun _ => by simp only; omega, fun _ => hle⟩ rfl ?_
    rw [hpending, List.append_assoc, ← htake]
    simp [pending]

theorem Sound.feed {a : Assembler} (h : a.Sound) (byte : UInt8) : Fed a byte (a.feed byte) := by
  cases hp : a.phase with
  | source | destination | opCode =>
    have hc := h.cursor_eq (by simp [hp])
    simp only [Assembler.feed, hp]
    exact .more ⟨h.bound_le, fun _ => hc, nofun, nofun⟩ rfl (by simp [pending, hp])
  | length =>
    have hc := h.cursor_eq (by simp [hp])
    by_cases habove : a.bound < byte.toNat
    · simp only [Assembler.feed, hp, gt_iff_lt, habove, ↓reduceIte]
      exact .refused (h := { a.header with length := byte })
        ⟨h.bound_le, fun _ => rfl, nofun, nofun⟩ rfl rfl habove (by simp [pending, hp, Header.bytes])
    · by_cases hzero : byte = 0
      · simp only [Assembler.feed, hp, gt_iff_lt, hzero, ↓reduceIte]
        refine .frame ⟨h.bound_le, fun _ => hc, nofun, nofun⟩ rfl rfl ⟨rfl, Nat.zero_le _⟩ ?_
        simp [pending, hp, Arrival.bytes, Header.bytes]
      · have hpos : 0 < byte.toNat := by
          have : byte.toNat ≠ 0 := fun he => hzero (UInt8.toNat_inj.mp he)
          omega
        simp only [Assembler.feed, hp, gt_iff_lt, habove, hzero, ↓reduceIte]
        exact .more ⟨h.bound_le, nofun, fun _ => hpos, fun _ => Nat.le_of_not_lt habove⟩ rfl
          (by simp [pending, hp, Header.bytes])
  | payload => exact h.feed_payload hp byte

theorem Fed.sound {a a' : Assembler} {byte : UInt8} {result : Except ParamFault (Option Arrival)}
    (h : Fed a byte (result, a')) : a'.Sound := by
  cases h <;> assumption

theorem Fed.bound_eq {a a' : Assembler} {byte : UInt8} {result : Except ParamFault (Option Arrival)}
    (h : Fed a byte (result, a')) : a'.bound = a.bound := by
  cases h <;> assumption

theorem Reachable.sound {bound : Nat} {a : Assembler} (h : a.Reachable bound) : a.Sound := by
  induction h with
  | fresh => exact .withBound bound
  | feed byte _ ih => exact (ih.feed byte).sound
  | reset _ ih => exact ih.reset

theorem Reachable.bound_eq {bound : Nat} {a : Assembler} (h : a.Reachable bound) :
    a.bound = min bound payloadLimit := by
  induction h with
  | fresh => rfl
  | feed byte h ih => exact (h.sound.feed byte).bound_eq.trans ih
  | reset _ ih => exact ih

/-- Phase and count belong to the bytes of the frame in progress alone. -/
def progress : List UInt8 → Phase × Nat
  | [] => (.source, 0)
  | [_] => (.destination, 0)
  | [_, _] => (.opCode, 0)
  | [_, _, _] => (.length, 0)
  | _ :: _ :: _ :: _ :: payload => (.payload, payload.length)

theorem Sound.progress_pending {a : Assembler} (h : a.Sound) :
    progress a.pending = (a.phase, a.cursor) := by
  cases hp : a.phase with
  | payload =>
    have := h.cursor_lt hp
    have := h.length_le hp
    have := h.bound_le
    simp only [pending, hp, Header.bytes, progress, List.cons_append, List.nil_append,
      List.length_take, Vector.length_toList, Prod.mk.injEq, true_and]
    omega
  | source | destination | opCode | length =>
    simp [pending, progress, hp, h.cursor_eq (by simp [hp])]

end Assembler

end TwoWire
