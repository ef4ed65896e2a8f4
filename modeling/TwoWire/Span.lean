/-! Lengths of time, kept as whole seconds and the nanoseconds left over. -/

namespace TwoWire

structure Span where
  seconds : UInt64
  nanos : Nat
  nanos_lt : nanos < 1000000000

namespace Span

def ofMillis (ms : UInt64) : Span :=
  ⟨ms / 1000, ms.toNat % 1000 * 1000000, by omega⟩

/-- Seconds and any number of nanoseconds, whole seconds among the latter carried
over. -/
def ofParts (seconds : UInt64) (nanos : Nat) : Span :=
  ⟨seconds + (nanos / 1000000000).toUInt64, nanos % 1000000000, by omega⟩

def toNanos (s : Span) : Nat :=
  s.seconds.toNat * 1000000000 + s.nanos

/-- A number that words of so many bits can hold. -/
def word? (bits n : Nat) : Option Nat :=
  if n < Nat.pow 2 bits then some n else none

/-- Milliseconds of a span, a started one as a whole one, added up in words of so many bits:
no answer if there is a step that they cannot hold. -/
def ceilMillisWithin (bits : Nat) (d : Span) : Option Nat := do
  let whole ← word? bits (d.seconds.toNat * 1000)
  let whole ← word? bits (whole + d.nanos / 1000000)
  word? bits (whole + if d.nanos % 1000000 = 0 then 0 else 1)

theorem ceilMillisWithin_eq {bits : Nat} (wide : 75 ≤ bits) (d : Span) :
    d.ceilMillisWithin bits =
      some (d.seconds.toNat * 1000 + d.nanos / 1000000 +
        if d.nanos % 1000000 = 0 then 0 else 1) := by
  have hbits : 2 ^ 75 ≤ Nat.pow 2 bits := Nat.pow_le_pow_right (by decide) wide
  have hseconds := d.seconds.toNat_lt
  have hnanos := d.nanos_lt
  have hmost : d.seconds.toNat * 1000 + d.nanos / 1000000 +
      (if d.nanos % 1000000 = 0 then 0 else 1) < Nat.pow 2 bits := by
    split <;> omega
  -- Nothing is ever taken off, so each step is at most what comes out.
  have hsecond : d.seconds.toNat * 1000 + d.nanos / 1000000 < Nat.pow 2 bits :=
    Nat.lt_of_le_of_lt (Nat.le_add_right _ _) hmost
  have hfirst : d.seconds.toNat * 1000 < Nat.pow 2 bits :=
    Nat.lt_of_le_of_lt (Nat.le_add_right _ _) hsecond
  simp only [ceilMillisWithin, word?, hfirst, hsecond, if_true, Option.bind_eq_bind,
    Option.bind_some]
  exact if_pos hmost

theorem isSome_ceilMillisWithin (d : Span) : (d.ceilMillisWithin 128).isSome := by
  rw [ceilMillisWithin_eq (by decide)]
  rfl

/-- Milliseconds of the span in words of 128 bits, which hold every step. -/
def ceilMillis (d : Span) : Nat :=
  (d.ceilMillisWithin 128).get d.isSome_ceilMillisWithin

theorem ceilMillis_eq (d : Span) :
    d.ceilMillis = d.seconds.toNat * 1000 + d.nanos / 1000000 +
      if d.nanos % 1000000 = 0 then 0 else 1 := by
  simp only [ceilMillis, ceilMillisWithin_eq (show 75 ≤ 128 by decide), Option.get_some]

end Span

end TwoWire
