import Mathlib.Order.Bounds.Defs
import TwoWire.Proofs.IdleTimeout

/-! A time-out that is set to a span is the fewest whole milliseconds that last as long, or
the longest that a word can hold. So no span but none at all is refused as a time-out. -/

namespace TwoWire

namespace Span

theorem ceilMillis_le_iff (d : Span) (ms : Nat) : d.ceilMillis ≤ ms ↔ d.toNanos ≤ ms * 1000000 := by
  have hnanos := d.nanos_lt
  have hdivision := Nat.div_add_mod d.nanos 1000000
  rw [ceilMillis_eq, toNanos]
  by_cases hwhole : d.nanos % 1000000 = 0
  · rw [if_pos hwhole]
    omega
  · rw [if_neg hwhole]
    omega

theorem isLeast_ceilMillis (d : Span) : IsLeast {ms | d.toNanos ≤ ms * 1000000} d.ceilMillis := by
  constructor
  · exact (d.ceilMillis_le_iff _).mp (Nat.le_refl _)
  · intro ms hms
    exact (d.ceilMillis_le_iff ms).mpr hms

theorem toNanos_le_ceilMillis (d : Span) : d.toNanos ≤ d.ceilMillis * 1000000 :=
  d.isLeast_ceilMillis.1

theorem ceilMillis_lt_toNanos (d : Span) : d.ceilMillis * 1000000 < d.toNanos + 1000000 := by
  by_cases hpos : d.ceilMillis = 0
  · omega
  · have hless : ¬ d.ceilMillis ≤ d.ceilMillis - 1 := by omega
    rw [ceilMillis_le_iff] at hless
    omega

theorem ceilMillis_mono {d e : Span} (h : d.toNanos ≤ e.toNanos) : d.ceilMillis ≤ e.ceilMillis :=
  (d.ceilMillis_le_iff _).mpr (Nat.le_trans h e.toNanos_le_ceilMillis)

theorem ceilMillis_eq_zero_iff (d : Span) : d.ceilMillis = 0 ↔ d.toNanos = 0 := by
  have h := d.ceilMillis_le_iff 0
  rwa [Nat.zero_mul, Nat.le_zero, Nat.le_zero] at h

theorem ceilMillis_ofMillis (ms : UInt64) : (ofMillis ms).ceilMillis = ms.toNat := by
  apply Nat.le_antisymm
  · exact ((ofMillis ms).ceilMillis_le_iff _).mpr (Nat.le_of_eq (toNanos_ofMillis ms))
  · have h := (ofMillis ms).toNanos_le_ceilMillis
    rw [toNanos_ofMillis] at h
    exact Nat.le_of_mul_le_mul_right h (by decide)

end Span

namespace Settings

variable (s : Settings) (d : Span)

/-- The milliseconds that a span is set to. -/
def roundedUp : UInt64 :=
  (min d.ceilMillis longestTimeout).toUInt64

theorem withIdleTimeout_eq : s.withIdleTimeout d = { s with idleTimeout := some (roundedUp d) } :=
  rfl

theorem toNat_roundedUp : (roundedUp d).toNat = min d.ceilMillis longestTimeout := by
  apply Nat.mod_eq_of_lt
  have hle := Nat.min_le_right d.ceilMillis longestTimeout
  exact Nat.lt_of_le_of_lt hle (by decide)

theorem roundedUp_mono {d e : Span} (h : d.toNanos ≤ e.toNanos) : roundedUp d ≤ roundedUp e := by
  rw [UInt64.le_iff_toNat_le, toNat_roundedUp, toNat_roundedUp]
  have hle := Span.ceilMillis_mono h
  omega

theorem roundedUp_eq_zero_iff : roundedUp d = 0 ↔ d.toNanos = 0 := by
  rw [← UInt64.toNat_inj, toNat_roundedUp, ← d.ceilMillis_eq_zero_iff]
  show min d.ceilMillis longestTimeout = 0 ↔ d.ceilMillis = 0
  simp only [longestTimeout]
  omega

theorem roundedUp_ofMillis (ms : UInt64) : roundedUp (.ofMillis ms) = ms := by
  rw [← UInt64.toNat_inj, toNat_roundedUp, Span.ceilMillis_ofMillis]
  have hms := ms.toNat_lt
  simp only [longestTimeout]
  omega

/-- A span within the longest time-out lasts as long as what it is set to, all but less than
a millisecond. -/
theorem toNanos_roundedUp {d : Span} (fits : d.toNanos ≤ longestTimeout * 1000000) :
    d.toNanos ≤ (Span.ofMillis (roundedUp d)).toNanos ∧
      (Span.ofMillis (roundedUp d)).toNanos < d.toNanos + 1000000 := by
  have hle : d.ceilMillis ≤ longestTimeout := (d.ceilMillis_le_iff _).mpr fits
  rw [Span.toNanos_ofMillis, toNat_roundedUp, Nat.min_eq_left hle]
  exact ⟨d.toNanos_le_ceilMillis, d.ceilMillis_lt_toNanos⟩

/-- The checks of settings in their order: the bound, then the time-out. -/
theorem check_eq : s.check =
    if 1 ≤ s.payloadBound.toNat ∧ s.payloadBound.toNat ≤ payloadLimit then
      if s.idleTimeout = some 0 then .error .zeroIdleTimeout else .ok ()
    else .error (.boundOutOfRange s.payloadBound.toNat) := by
  have hzero : s.payloadBound = 0 ↔ s.payloadBound.toNat = 0 := UInt64.toNat_inj.symm
  by_cases hbound : 1 ≤ s.payloadBound.toNat ∧ s.payloadBound.toNat ≤ payloadLimit
  · rw [check, if_neg (by rw [hzero]; omega), if_pos hbound]
  · rw [check, if_pos (by rw [hzero]; omega), if_neg hbound]

theorem check_withIdleTimeout :
    (s.withIdleTimeout d).check =
      if 1 ≤ s.payloadBound.toNat ∧ s.payloadBound.toNat ≤ payloadLimit then
        if d.toNanos = 0 then .error .zeroIdleTimeout else .ok ()
      else .error (.boundOutOfRange s.payloadBound.toNat) := by
  simp only [check_eq, withIdleTimeout_eq, Option.some.injEq, roundedUp_eq_zero_iff]

/-- Setting the time-out to a span stores the fewest milliseconds that are not below it, or
all that a word can hold, and no step on the way is more than a word of 128 bits can hold. As
long as it fits, what is stored lasts as long as the span and less than a millisecond longer.
The checks refuse it exactly if the span is none at all, a longer span never gives less, and
what is stored is a span that is stored as it is. -/
theorem timeout_rounds_up :
    ∃ ms : UInt64, s.withIdleTimeout d = { s with idleTimeout := some ms } ∧
      (s.withIdleTimeout d).idleSpan = some (.ofMillis ms) ∧
      (∃ least, IsLeast {n | d.toNanos ≤ n * 1000000} least ∧
        d.ceilMillisWithin 128 = some least ∧ ms.toNat = min least longestTimeout) ∧
      (d.toNanos ≤ longestTimeout * 1000000 →
        d.toNanos ≤ (Span.ofMillis ms).toNanos ∧
          (Span.ofMillis ms).toNanos < d.toNanos + 1000000) ∧
      ((s.withIdleTimeout d).check =
        if 1 ≤ s.payloadBound.toNat ∧ s.payloadBound.toNat ≤ payloadLimit then
          if d.toNanos = 0 then .error .zeroIdleTimeout else .ok ()
        else .error (.boundOutOfRange s.payloadBound.toNat)) ∧
      (∀ longer : Span, d.toNanos ≤ longer.toNanos → ∃ ms',
        (s.withIdleTimeout longer).idleTimeout = some ms' ∧ ms ≤ ms') ∧
      (s.withIdleTimeout d).withIdleTimeout (.ofMillis ms) = s.withIdleTimeout d := by
  refine ⟨roundedUp d, rfl, rfl, ⟨d.ceilMillis, d.isLeast_ceilMillis, ?_, toNat_roundedUp d⟩,
    toNanos_roundedUp, check_withIdleTimeout s d, fun longer h => ?_, ?_⟩
  · exact (Option.some_get d.isSome_ceilMillisWithin).symm
  · exact ⟨roundedUp longer, rfl, roundedUp_mono h⟩
  · simp only [withIdleTimeout_eq, roundedUp_ofMillis]

/-- A second and a half and one nanosecond, and a span that no number of milliseconds in a
word reaches. -/
theorem timeout_rounds_up_started :
    let s : Settings := { payloadBound := 8 }
    let d : Span := ⟨1, 500000001, by decide⟩
    let longest : Span := ⟨18446744073709551615, 999999999, by decide⟩
    d.toNanos ≤ longestTimeout * 1000000 ∧ d.toNanos ≤ longest.toNanos ∧
      (s.withIdleTimeout d).idleTimeout = some 1501 ∧
      d.toNanos ≤ (Span.ofMillis 1501).toNanos ∧
      (Span.ofMillis 1501).toNanos < d.toNanos + 1000000 ∧
      (s.withIdleTimeout longest).idleTimeout = some 18446744073709551615 ∧
      (1501 : UInt64) ≤ 18446744073709551615 := by
  intro s d longest
  have fits : d.toNanos ≤ longestTimeout * 1000000 := by decide
  have hlonger : d.toNanos ≤ longest.toNanos := by decide
  have hstored : (s.withIdleTimeout d).idleTimeout = some 1501 := by decide
  have hlast : (s.withIdleTimeout longest).idleTimeout = some 18446744073709551615 := by decide
  obtain ⟨ms, hms, -, -, hspan, -, hmono, -⟩ := timeout_rounds_up s d
  obtain rfl : 1501 = ms := Option.some.inj (hstored.symm.trans (congrArg idleTimeout hms))
  obtain ⟨ms', hms', hle⟩ := hmono longest hlonger
  obtain rfl : 18446744073709551615 = ms' := Option.some.inj (hlast.symm.trans hms')
  exact ⟨fits, hlonger, hstored, (hspan fits).1, (hspan fits).2, hlast, hle⟩

end Settings

end TwoWire
