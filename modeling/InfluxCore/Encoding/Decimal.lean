import Mathlib

/-! # Decimal digits, as Rust writes and reads them

Rust renders an unsigned integer in decimal exactly as `Nat.toDigits 10` does, and both
`str::parse::<u32>` and chrono's `scan::number` read digits from the left, one
`accumulateDigit` at a time. `foldl_toDigitsCore` is the round trip; leading zeros, which
chrono's zero padding adds, read as nothing (`foldl_replicate_zero`).
-/

namespace InfluxCore.Decimal

/-- One decimal digit more, read from the left. -/
def accumulateDigit (value : Nat) (digit : Char) : Nat :=
  value * 10 + (digit.toNat - '0'.toNat)

theorem digitChar_value {digit : Nat} (small : digit < 10) :
    (Nat.digitChar digit).isDigit ∧ (Nat.digitChar digit).toNat - '0'.toNat = digit := by
  interval_cases digit <;> decide

/-- Reading the digits `Nat.toDigitsCore` prepends gives back the number it renders. -/
theorem foldl_toDigitsCore (fuel value : Nat) (digits : List Char) (enough : value < fuel) :
    (Nat.toDigitsCore 10 fuel value digits).foldl accumulateDigit 0 =
      digits.foldl accumulateDigit value := by
  induction fuel generalizing value digits with
  | zero => omega
  | succ fuel inductionHypothesis =>
    have last := (digitChar_value (Nat.mod_lt value (by decide : 10 > 0))).2
    rw [Nat.toDigitsCore]
    split_ifs with single
    · simp only [List.foldl_cons, accumulateDigit, last]
      congr 1; omega
    · rw [inductionHypothesis _ _ (by omega), List.foldl_cons, accumulateDigit, last]
      congr 1; omega

theorem isDigit_toDigitsCore (fuel value : Nat) (digits : List Char)
    (allDigits : ∀ c ∈ digits, c.isDigit) : ∀ c ∈ Nat.toDigitsCore 10 fuel value digits, c.isDigit := by
  induction fuel generalizing value digits with
  | zero => exact allDigits
  | succ fuel inductionHypothesis =>
    have last := (digitChar_value (Nat.mod_lt value (by decide : 10 > 0))).1
    rw [Nat.toDigitsCore]
    split_ifs
    · simpa [last] using allDigits
    · exact inductionHypothesis _ _ (by simpa [last] using allDigits)

theorem toDigitsCore_ne_nil (fuel value : Nat) (digits : List Char) :
    Nat.toDigitsCore 10 (fuel + 1) value digits ≠ [] := by
  induction fuel generalizing value digits with
  | zero => rw [Nat.toDigitsCore]; split_ifs <;> simp [Nat.toDigitsCore]
  | succ fuel inductionHypothesis =>
    rw [Nat.toDigitsCore]; split_ifs
    · simp
    · exact inductionHypothesis _ _

/-- `Nat.toDigits 10 value`: some decimal digits, that read back as `value`. -/
theorem toDigits_spec (value : Nat) :
    Nat.toDigits 10 value ≠ [] ∧ (∀ c ∈ Nat.toDigits 10 value, c.isDigit) ∧
      (Nat.toDigits 10 value).foldl accumulateDigit 0 = value :=
  ⟨toDigitsCore_ne_nil _ _ _, isDigit_toDigitsCore _ _ _ (by simp),
    foldl_toDigitsCore _ _ _ (Nat.lt_succ_self _)⟩

/-- A number below `10 ^ width` has at most `width` digits. -/
theorem toDigits_length_le {value width : Nat} (fits : value < 10 ^ width) (positive : 0 < width) :
    (Nat.toDigits 10 value).length ≤ width :=
  Nat.toDigitsCore_length 10 (by decide) _ _ _ fits positive

/-- Digits read after `init` stay below `init + 1` shifted by their count. -/
theorem foldl_accumulateDigit_lt {digits : List Char} (allDigits : ∀ c ∈ digits, c.isDigit)
    (init : Nat) : digits.foldl accumulateDigit init < (init + 1) * 10 ^ digits.length := by
  induction digits generalizing init with
  | nil => simp
  | cons c digits inductionHypothesis =>
    have digit := allDigits c (.head _)
    simp only [Char.isDigit, Bool.and_eq_true, decide_eq_true_eq] at digit
    have small : c.toNat - '0'.toNat ≤ 9 := by
      have : c.toNat ≤ 57 := digit.2
      have zero : '0'.toNat = 48 := rfl
      omega
    calc (c :: digits).foldl accumulateDigit init
        = digits.foldl accumulateDigit (init * 10 + (c.toNat - '0'.toNat)) := rfl
      _ < (init * 10 + (c.toNat - '0'.toNat) + 1) * 10 ^ digits.length :=
        inductionHypothesis (fun c member => allDigits c (.tail _ member)) _
      _ ≤ (init + 1) * 10 * 10 ^ digits.length := Nat.mul_le_mul_right _ (by omega)
      _ = (init + 1) * 10 ^ (c :: digits).length := by
        rw [List.length_cons, Nat.pow_succ, Nat.mul_assoc, Nat.mul_comm 10]

/-- A number of at least `10 ^ (width - 1)` and below `10 ^ width` has exactly `width` digits. -/
theorem toDigits_length_eq {value width : Nat} (wide : 10 ^ (width - 1) ≤ value)
    (fits : value < 10 ^ width) (positive : 0 < width) : (Nat.toDigits 10 value).length = width := by
  obtain ⟨-, allDigits, reads⟩ := toDigits_spec value
  have below := foldl_accumulateDigit_lt allDigits 0
  rw [reads, Nat.zero_add, Nat.one_mul] at below
  have short := toDigits_length_le fits positive
  by_contra narrow
  have : 10 ^ (Nat.toDigits 10 value).length ≤ 10 ^ (width - 1) :=
    Nat.pow_le_pow_right (by decide) (by omega)
  omega

/-- Leading zeros read as nothing. -/
theorem foldl_replicate_zero (count : Nat) (digits : List Char) :
    (List.replicate count '0' ++ digits).foldl accumulateDigit 0 = digits.foldl accumulateDigit 0 := by
  induction count with
  | zero => rfl
  | succ count inductionHypothesis =>
    rw [List.replicate_succ, List.cons_append, List.foldl_cons]
    exact inductionHypothesis

end InfluxCore.Decimal
