import Mathlib.Data.List.TakeWhile
import Mathlib.Tactic.Common
import Mathlib.Tactic.Ring
import PocketCalculator.Decimal.Digits
import PocketCalculator.Proofs.Binary64.Rounding

/-!
# The value of a decimal

A decimal stands for a rational number, and everything that is done with decimals depends on this
number alone: the double nearest to a decimal does, and so does what is left of its digits when the
zeros at their end are dropped. Zeros on either side of the digits say nothing as long as the point
stays in its place.

## Main definitions

* `Decimal.value` — the number that a decimal stands for.
* `Decimal.digitsValue` — the number that digits with a point among them stand for.

## Main results

* `Decimal.magnitude_congr` — decimals of one value have the same nearest double.
* `Decimal.value_eq_digitsValue` — the digits of a decimal and its point give its value.
* `Decimal.digitsValue_append_zeros`, `Decimal.digitsValue_zeros_append` — zeros say nothing.
-/

namespace PocketCalculator.Decimal

-- The powers of the definitions that are opened here.
attribute [local instance (2000)] instPowNat

/-- The number that a decimal stands for. -/
def value (d : Decimal) : ℚ :=
  d.coefficient * 10 ^ d.exponent

/-- The double nearest to a decimal is the one nearest to any fraction of its value.

**Proof sketch.** Both are nearest doubles of fractions, and these are equal, since their values are
(`Binary64.nearest_congr`). -/
lemma magnitude_eq_nearest {d : Decimal} {num den : ℕ} (hden : 0 < den)
    (h : d.value = num / den) : d.magnitude = Binary64.nearest num den := by
  refine Binary64.nearest_congr (by positivity) hden ?_
  rw [value, Binary64.zpow_eq_div, mul_div_assoc',
    div_eq_div_iff (by positivity) (by positivity)] at h
  exact mod_cast h

/-- **Decimals of one value have the same nearest double.** -/
theorem magnitude_congr {d d' : Decimal} (h : d.value = d'.value) :
    d.magnitude = d'.magnitude := by
  refine magnitude_eq_nearest (by positivity) ?_
  rw [h, value, Binary64.zpow_eq_div, mul_div_assoc']
  push_cast
  rfl

/-! ## Digits with a point -/

/-- The number that digits stand for if the point is after the first `point` of them. -/
def digitsValue (ds : List Char) (point : ℤ) : ℚ :=
  Nat.ofDigitChars 10 ds 0 * 10 ^ (point - ds.length)

/-- Zeros after the digits say nothing.

**Proof sketch.** `n` zeros multiply the number that the digits spell by `10 ^ n`, and the power of
ten it is scaled with becomes smaller by the same factor. -/
lemma digitsValue_append_zeros (ds : List Char) (n : ℕ) (point : ℤ) :
    digitsValue (ds ++ List.replicate n '0') point = digitsValue ds point := by
  have hlength : point - ds.length = n + (point - ((ds ++ List.replicate n '0').length : ℕ)) := by
    rw [List.length_append, List.length_replicate]
    push_cast
    ring
  rw [digitsValue, digitsValue, hlength, zpow_add₀ (by norm_num), Nat.ofDigitChars_append,
    Nat.ofDigitChars_replicate_zero, zpow_natCast]
  push_cast
  ring

/-- Zeros before the digits say nothing if the point stays in its place.

**Proof sketch.** Zeros in front do not change the number that the digits spell, and the point moves
along with the digits. -/
lemma digitsValue_zeros_append (ds : List Char) (n : ℕ) (point : ℤ) :
    digitsValue (List.replicate n '0' ++ ds) (n + point) = digitsValue ds point := by
  have hlength : n + point - ((List.replicate n '0' ++ ds).length : ℕ) = point - ds.length := by
    rw [List.length_append, List.length_replicate]
    push_cast
    ring
  rw [digitsValue, digitsValue, hlength, Nat.ofDigitChars_append, Nat.ofDigitChars_replicate_zero,
    Nat.mul_zero]

/-! ## The digits of a decimal -/

/-- The digits of a decimal are those of its coefficient without the zeros at their end.

**Proof sketch.** The digits are cut off where the zeros at the end begin, and what is cut off is a
row of zeros. -/
lemma exists_toDigits (d : Decimal) :
    ∃ n, Nat.toDigits 10 d.coefficient = d.digits ++ List.replicate n '0' := by
  have hcut := List.takeWhile_append_dropWhile (p := (· == '0'))
    (l := (Nat.toDigits 10 d.coefficient).reverse)
  obtain ⟨n, hzeros⟩ : ∃ n, (Nat.toDigits 10 d.coefficient).reverse.takeWhile (· == '0') =
      List.replicate n '0' :=
    ⟨_, List.eq_replicate_of_mem fun c hc => by simpa using List.mem_takeWhile_imp hc⟩
  refine ⟨n, ?_⟩
  rw [hzeros] at hcut
  rw [← List.reverse_inj, ← hcut, digits, List.reverse_append, List.reverse_reverse,
    List.reverse_replicate]

/-- **The digits of a decimal and its point** give its value.

**Proof sketch.** The digits of the coefficient are those of the decimal and some zeros, which say
nothing (`digitsValue_append_zeros`), and a number is spelled by its digits. -/
theorem value_eq_digitsValue (d : Decimal) : d.value = digitsValue d.digits d.point := by
  obtain ⟨n, hn⟩ := d.exists_toDigits
  rw [← digitsValue_append_zeros d.digits n, ← hn, digitsValue, Nat.ofDigitChars_ten_toDigits,
    value, point, add_sub_cancel_right]

end PocketCalculator.Decimal
