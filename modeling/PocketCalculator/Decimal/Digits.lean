import PocketCalculator.Decimal.Basic

/-!
# Digits of a decimal

A decimal is written by its digits and the place of its point among them. Zeros at the end of the
digits say nothing and are dropped; the place of the point does not depend on them.

## Main definitions

* `Decimal.digitCount` — the number of decimal digits of a natural number.
* `Decimal.digits`, `Decimal.point` — the digits of a decimal and the place of its point.
-/

namespace PocketCalculator.Decimal

-- Powers of natural numbers are the ones of the core library, whatever else is imported.
attribute [local instance (2000)] instPowNat

/-- The number of decimal digits of a natural number, of which zero has none. -/
def digitCount (n : Nat) : Nat :=
  if n = 0 then 0 else (Nat.toDigits 10 n).length

/-- The number of digits is the least `k` with `n < 10 ^ k`. -/
theorem digitCount_le_iff {n k : Nat} : digitCount n ≤ k ↔ n < 10 ^ k := by
  rcases Nat.eq_zero_or_pos n with rfl | hn
  · exact ⟨fun _ => Nat.pow_pos (by decide), fun _ => Nat.zero_le _⟩
  · rcases Nat.eq_zero_or_pos k with rfl | hk
    · have := Nat.length_toDigits_pos (b := 10) (n := n)
      simp only [digitCount, Nat.pow_zero]
      split <;> omega
    · simp [digitCount, Nat.ne_of_gt hn, Nat.length_toDigits_le_iff (b := 10) (by decide) hk]

/-- The digits of a decimal, without zeros at their end. -/
def digits (d : Decimal) : List Char :=
  ((Nat.toDigits 10 d.coefficient).reverse.dropWhile (· == '0')).reverse

/-- How many digits of a decimal stand before its point; if negative, how many zeros stand between
the point and the first digit. -/
def point (d : Decimal) : Int :=
  d.exponent + (Nat.toDigits 10 d.coefficient).length

end PocketCalculator.Decimal
