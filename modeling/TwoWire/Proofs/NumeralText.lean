import TwoWire.Text.Record

/-! A natural number written in decimal is read as that number, by every reader of numbers whose
limit it is within. What stands behind it only has to be something that no number goes on with. -/

namespace TwoWire

theorem isDigit_decimalDigit : ∀ d < 10, (decimalDigit d).isDigit = true := by
  decide

theorem digitValue_decimalDigit : ∀ d < 10, digitValue (decimalDigit d) = d := by
  decide

theorem decimalDigit_ne_zero : ∀ d < 10, d ≠ 0 → decimalDigit d ≠ '0' := by
  decide

theorem decimal_of_lt {n : Nat} (h : n < 10) : decimal n = [decimalDigit n] := by
  rw [decimal, if_pos h]

theorem decimal_of_le {n : Nat} (h : 10 ≤ n) :
    decimal n = decimal (n / 10) ++ [decimalDigit (n % 10)] := by
  rw [decimal, if_neg (by omega)]

theorem isDigit_decimal (n : Nat) : ∀ c ∈ decimal n, c.isDigit = true := by
  induction n using decimal.induct with
  | case1 n h =>
    rw [decimal_of_lt h]
    intro c hc
    rw [List.mem_singleton.mp hc]
    exact isDigit_decimalDigit n h
  | case2 n h ih =>
    rw [decimal_of_le (by omega)]
    intro c hc
    rcases List.mem_append.mp hc with hc | hc
    · exact ih c hc
    · rw [List.mem_singleton.mp hc]
      exact isDigit_decimalDigit _ (Nat.mod_lt n (by decide))

theorem decimalValue_decimal (n : Nat) : decimalValue 0 (decimal n) = n := by
  induction n using decimal.induct with
  | case1 n h =>
    have hdigit := digitValue_decimalDigit n h
    rw [decimal_of_lt h]
    show 10 * 0 + digitValue (decimalDigit n) = n
    omega
  | case2 n h ih =>
    have hdigit := digitValue_decimalDigit (n % 10) (Nat.mod_lt n (by decide))
    rw [decimal_of_le (by omega), decimalValue, List.foldl_append]
    show 10 * decimalValue 0 (decimal (n / 10)) + digitValue (decimalDigit (n % 10)) = n
    rw [ih, hdigit]
    omega

/-- A positive number has no leading zero. -/
theorem decimal_of_pos {n : Nat} (h : 0 < n) : ∃ c digits, decimal n = c :: digits ∧ c ≠ '0' := by
  induction n using decimal.induct with
  | case1 n hlt =>
    exact ⟨_, _, decimal_of_lt hlt, decimalDigit_ne_zero n hlt (by omega)⟩
  | case2 n hge ih =>
    obtain ⟨c, digits, hdigits, hc⟩ := ih (by omega)
    refine ⟨c, digits ++ [decimalDigit (n % 10)], ?_, hc⟩
    rw [decimal_of_le (by omega), hdigits, List.cons_append]

theorem decimal_cons (n : Nat) : ∃ c digits, decimal n = c :: digits ∧ c.isDigit = true ∧
    (c = '0' → digits = []) := by
  rcases Nat.eq_zero_or_pos n with rfl | hpos
  · exact ⟨'0', [], decimal_of_lt (by decide), rfl, fun _ => rfl⟩
  · obtain ⟨c, digits, hdigits, hc⟩ := decimal_of_pos hpos
    have hdigit : c.isDigit = true := isDigit_decimal n c (hdigits ▸ .head _)
    exact ⟨c, digits, hdigits, hdigit, fun h => absurd h hc⟩

/-- No number goes on with what comes. -/
def EndsNumber (s : List Char) : Prop :=
  ∀ c ∈ s.head?, c.isDigit = false ∧ c ≠ '.' ∧ c ≠ 'e' ∧ c ≠ 'E'

namespace Numeral

theorem le_decimalValue (n : Nat) (digits : List Char) : n ≤ decimalValue n digits := by
  induction digits generalizing n with
  | nil => exact Nat.le_refl n
  | cons c rest ih =>
    have hrest : 10 * n + digitValue c ≤ decimalValue n (c :: rest) := ih _
    omega

theorem accumulate_eq {n : Nat} {digits : List Char}
    (h : decimalValue n digits < 18446744073709551616) :
    accumulate n digits = (decimalValue n digits, digits.length, 0) := by
  induction digits generalizing n with
  | nil => rfl
  | cons c rest ih =>
    have hrest : decimalValue (10 * n + digitValue c) rest < 18446744073709551616 := h
    have hnext := le_decimalValue (10 * n + digitValue c) rest
    rw [accumulate, if_pos (by omega), ih hrest]
    rfl

section Scan

variable {s : List Char} (ends : EndsNumber s) (cut : TextFault)
include ends

theorem takeWhile_isDigit : s.takeWhile Char.isDigit = [] ∧ s.dropWhile Char.isDigit = s := by
  cases s with
  | nil => exact ⟨rfl, rfl⟩
  | cons c s =>
    have hc : ¬ c.isDigit = true := Bool.not_eq_true _ ▸ (ends c rfl).1
    exact ⟨List.takeWhile_cons_of_neg hc, List.dropWhile_cons_of_neg hc⟩

theorem scanWhole_decimal (n : Nat) : scanWhole cut (decimal n ++ s) = .ok (decimal n, s) := by
  have htake : (decimal n ++ s).takeWhile Char.isDigit = decimal n := by
    rw [List.takeWhile_append_of_pos (isDigit_decimal n), (takeWhile_isDigit ends).1,
      List.append_nil]
  have hdrop : (decimal n ++ s).dropWhile Char.isDigit = s := by
    rw [List.dropWhile_append_of_pos (isDigit_decimal n), (takeWhile_isDigit ends).2]
  obtain ⟨c, digits, hdigits, -, hzero⟩ := decimal_cons n
  have hscan : scanDigits cut (decimal n ++ s) = .ok (decimal n, s) := by
    rw [scanDigits, htake, hdrop, hdigits]
  rw [scanWhole, hscan, hdigits]
  simp only [bind, Except.bind]
  split
  · rename_i h
    obtain ⟨rfl, h⟩ := List.cons.inj h
    rw [hzero rfl] at h
    cases h
  · rfl

theorem scanFraction_none : scanFraction cut s = .ok (none, s) := by
  unfold scanFraction
  split
  · exact absurd rfl (ends '.' rfl).2.1
  · rfl

theorem scanExponent_none : scanExponent cut s = .ok (none, s) := by
  cases s with
  | nil => rfl
  | cons c s =>
    obtain ⟨-, -, hlower, hupper⟩ := ends c rfl
    have hmark : ¬ (c = 'e' ∨ c = 'E') := by
      rintro (h | h) <;> contradiction
    exact if_neg hmark

theorem scan_decimal (n : Nat) :
    scan cut (decimal n ++ s) = .ok (⟨false, decimal n, none, none⟩, s) := by
  obtain ⟨c, digits, hdigits, hdigit, -⟩ := decimal_cons n
  have hsign : ∀ after, decimal n ++ s ≠ '-' :: after := by
    intro after h
    rw [hdigits, List.cons_append] at h
    rw [(List.cons.inj h).1] at hdigit
    cases hdigit
  rw [scan]
  · simp only [bind, Except.bind, scanWhole_decimal ends, scanFraction_none ends,
      scanExponent_none ends]
    rfl
  · exact hsign

end Scan

theorem natural?_decimal {n : Nat} (h : n < 18446744073709551616) :
    natural? ⟨false, decimal n, none, none⟩ = some n := by
  have hvalue := decimalValue_decimal n
  have haccumulate : accumulate 0 (decimal n) = (n, (decimal n).length, 0) := by
    rw [accumulate_eq (by omega), hvalue]
  simp only [natural?, haccumulate]

end Numeral

theorem readNumeral_decimal {n : Nat} (h : n < 18446744073709551616) {s : List Char}
    (ends : EndsNumber s) : readNumeral (decimal n ++ s) = .ok (some n, s) := by
  rw [readNumeral, Numeral.scan_decimal ends]
  simp only [bind, Except.bind, Numeral.natural?_decimal h]
  rfl

end TwoWire
