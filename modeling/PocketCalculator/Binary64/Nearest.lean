import PocketCalculator.Binary64.Basic

/-!
# The double nearest to a fraction

Rounding is done in exact arithmetic on natural numbers: the binade of the fraction fixes the
spacing of the doubles around it, the fraction is divided by that spacing, and the quotient is
rounded to the nearest integer, a half going to the even neighbour.

## Main definitions

* `Binary64.roundHalfEven` — a quotient rounded to the nearest integer.
* `Binary64.binade` — the binary order of magnitude of a fraction.
* `Binary64.nearest` — the magnitude of the double nearest to a fraction.
-/

namespace PocketCalculator.Binary64

-- Powers of natural numbers are the ones of the core library, whatever else is imported.
attribute [local instance (2000)] instPowNat

/-- The integer nearest to `num / den`; of two equally near ones, the even one. -/
def roundHalfEven (num den : Nat) : Nat :=
  let whole := num / den
  let twice := 2 * (num % den)
  if twice < den ∨ (twice = den ∧ whole % 2 = 0) then whole else whole + 1

/-- A quotient that is an integer is not changed. -/
theorem roundHalfEven_mul (n : Nat) {den : Nat} (h : 0 < den) :
    roundHalfEven (n * den) den = n := by
  simp [roundHalfEven, Nat.mul_div_cancel n h, h]

/-- The exponent `e` with `2 ^ e ≤ num / den < 2 ^ (e + 1)`, for positive `num` and `den`. The
logarithms of the two differ from it by one at most. -/
def binade (num den : Nat) : Int :=
  let e : Int := (num.log2 : Int) - (den.log2 : Int)
  if den * 2 ^ e.toNat ≤ num * 2 ^ (-e).toNat then e else e - 1

/-- The magnitude of the double nearest to `num / den`, a tie going to the even significand.

In a binade `e` the doubles are the multiples of `2 ^ q` with `q = e - 52`, but never finer than
`2 ^ (-1074)`. A significand of `m` in that spacing has the magnitude `(q + 1074) * 2 ^ 52 + m`;
one that was rounded up to `2 ^ 53` thereby lands on the first double of the next binade, and what
lies beyond the largest finite double is infinite. -/
def nearest (num den : Nat) : Nat :=
  if num = 0 then 0 else
    let q := max (binade num den - 52) (-1074)
    let m := roundHalfEven (num * 2 ^ (-q).toNat) (den * 2 ^ q.toNat)
    min infinity ((q + 1074).toNat * 2 ^ (52 : Nat) + m)

/-- Zero is a double itself. -/
@[simp]
theorem nearest_zero (den : Nat) : nearest 0 den = 0 := by
  simp [nearest]

/-- Rounding never gives a NaN. -/
theorem nearest_le_infinity (num den : Nat) : nearest num den ≤ infinity := by
  simp only [nearest]
  split
  · exact Nat.zero_le _
  · exact Nat.min_le_left _ _

end PocketCalculator.Binary64
