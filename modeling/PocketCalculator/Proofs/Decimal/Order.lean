import Mathlib.Tactic.Common
import PocketCalculator.Proofs.Decimal.Value

/-!
# The order of magnitude of a decimal

The digits of a decimal that is not zero begin and end with other digits than zero. So the place of
its point says how large it is, up to a factor of ten. And since the larger of two decimals never
has the smaller nearest double, decimals whose nearest doubles differ are in the same order as
these.

## Main results

* `Decimal.magnitude_mono` — the larger decimal has the larger nearest double.
* `Decimal.head_digits`, `Decimal.getLast_digits` — the digits of a decimal have no zero at an end.
* `Decimal.value_bounds` — the place of the point is the order of magnitude.
-/

namespace PocketCalculator.Decimal

-- The powers of the definitions that are opened here.
attribute [local instance (2000)] instPowNat

/-! ## Order -/

/-- **The larger decimal has the larger nearest double.**

**Proof sketch.** The order of two values is that of the fractions that are rounded, once both are
brought over natural denominators, and `Binary64.nearest_mono` rounds these in order. -/
theorem magnitude_mono {d d' : Decimal} (h : d.value ≤ d'.value) : d.magnitude ≤ d'.magnitude := by
  refine Binary64.nearest_mono (by positivity) (by positivity) ?_
  rw [value, value, Binary64.zpow_eq_div, Binary64.zpow_eq_div, mul_div_assoc', mul_div_assoc',
    div_le_div_iff₀ (by positivity) (by positivity)] at h
  exact mod_cast h

/-- Decimals are in the order of their nearest doubles. -/
lemma lt_of_magnitude_lt {d d' : Decimal} (h : d.magnitude < d'.magnitude) : d.value < d'.value :=
  lt_of_not_ge fun hle => absurd (magnitude_mono hle) (not_le.mpr h)

/-- The value of a power of ten. -/
lemma value_one (e : ℤ) : (⟨1, e⟩ : Decimal).value = 10 ^ e := by
  rw [value, Nat.cast_one, one_mul]

/-! ## Digits -/

/-- A number that is not zero is not written with a zero at its beginning.

**Proof sketch.** Strong induction on the number. A single digit is checked, and a longer number
begins as its tenth does. -/
lemma head_toDigits {n : ℕ} (hn : 0 < n) : (Nat.toDigits 10 n).head? ≠ some '0' := by
  induction n using Nat.strongRecOn with
  | ind n ih =>
    rcases Nat.lt_or_ge n 10 with hlt | hge
    · rw [Nat.toDigits_of_lt_base hlt]
      clear ih
      revert hn
      revert n
      decide
    · rw [Nat.toDigits_of_base_le (by decide) hge,
        List.head?_append_of_ne_nil _ Nat.toDigits_ne_nil]
      exact ih (n / 10) (by omega) (by omega)

variable {d : Decimal}

/-- The digits of a decimal do not begin with a zero.

**Proof sketch.** The digits and some zeros are those of the coefficient (`exists_toDigits`), which
is not zero, as it would have no digits otherwise. So they begin as the coefficient does. -/
lemma head_digits (hne : d.digits ≠ []) : d.digits.head? ≠ some '0' := by
  obtain ⟨n, hn⟩ := d.exists_toDigits
  have hpos : 0 < d.coefficient := by
    rw [Nat.pos_iff_ne_zero]
    intro hzero
    rw [digits, hzero] at hne
    exact hne rfl
  have hhead := head_toDigits hpos
  rwa [hn, List.head?_append_of_ne_nil _ hne] at hhead

/-- The digits of a decimal do not end with a zero.

**Proof sketch.** The digits are what is left when the zeros at the end have been dropped. -/
lemma getLast_digits : d.digits.getLast? ≠ some '0' := by
  intro hlast
  rw [digits, List.getLast?_reverse] at hlast
  have hnot := List.head?_dropWhile_not (· == '0') (Nat.toDigits 10 d.coefficient).reverse
  rw [hlast] at hnot
  exact absurd hnot (by decide)

/-- **The place of the point** is the order of magnitude of a decimal that is not zero.

**Proof sketch.** A coefficient with `n` digits lies between `10 ^ (n - 1)` and `10 ^ n`. The
exponent moves these bounds to the place of the point. -/
theorem value_bounds (hpos : 0 < d.coefficient) :
    (10 : ℚ) ^ (d.point - 1) ≤ d.value ∧ d.value < 10 ^ d.point := by
  obtain ⟨len, hlen⟩ : ∃ len, (Nat.toDigits 10 d.coefficient).length = len + 1 :=
    Nat.exists_eq_add_one.mpr Nat.length_toDigits_pos
  have hlt : d.coefficient < 10 ^ (len + 1) := by
    rw [← Nat.length_toDigits_le_iff (by decide) (by omega), hlen]
  have hle : 10 ^ len ≤ d.coefficient := by
    rcases Nat.eq_zero_or_pos len with rfl | hlen'
    · exact hpos
    · rw [← not_lt, ← Nat.length_toDigits_le_iff (by decide) hlen', hlen]
      omega
  have hscale : (0 : ℚ) < 10 ^ d.exponent := by positivity
  rw [point, hlen, value]
  push_cast
  constructor
  · rw [← add_assoc, add_sub_cancel_right, zpow_add₀ (by norm_num), mul_comm, zpow_natCast]
    exact mul_le_mul_of_nonneg_right (mod_cast hle) hscale.le
  · rw [zpow_add₀ (by norm_num), mul_comm]
    exact mul_lt_mul_of_pos_left (mod_cast hlt) hscale

end PocketCalculator.Decimal
