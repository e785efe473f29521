import Mathlib.Algebra.Order.Field.Power
import Mathlib.Data.Int.Log
import Mathlib.Data.Rat.Floor
import Mathlib.Tactic.Common
import Mathlib.Tactic.Positivity
import Mathlib.Tactic.Ring
import PocketCalculator.Binary64.Nearest

/-!
# Rounding to doubles

Rounding a fraction looks at its value only, and not at how it is written: the binade is the binary
logarithm of the value, and the quotient that is rounded is the same for equal fractions. A fraction
whose value is that of a finite double is rounded to this double, for then the quotient is its
significand. The larger of two fractions never has the smaller nearest double.

## Main results

* `Binary64.binade_eq_log` — the binade of a fraction is the logarithm of its value.
* `Binary64.nearest_congr` — equal fractions have the same nearest double.
* `Binary64.nearest_mono` — the larger fraction has the larger nearest double.
* `Binary64.nearest_unpack` — a finite magnitude is the nearest one to its own value.
-/

namespace PocketCalculator.Binary64

-- The powers of the definitions that are opened here.
attribute [local instance (2000)] instPowNat

/-- A power with an integer exponent is a quotient of two with natural ones, of which one is `1`. -/
lemma zpow_eq_div (x : ℚ) (e : ℤ) : x ^ e = x ^ e.toNat / x ^ (-e).toNat := by
  rcases Int.le_total 0 e with h | h
  · obtain ⟨n, rfl⟩ := Int.eq_ofNat_of_zero_le h
    simp
  · obtain ⟨n, hn⟩ := Int.eq_ofNat_of_zero_le (Int.neg_nonneg_of_nonpos h)
    obtain rfl : e = -n := by omega
    simp

/-! ## Binades -/

section Binades

variable {num den : ℕ} (hnum : 0 < num) (hden : 0 < den)

include hnum hden

/-- The logarithms of numerator and denominator give that of a fraction up to one.

**Proof sketch.** A number lies between the power of two of its logarithm and the next one. So a
quotient of two lies between the quotients of the outer and of the inner bounds, which are powers of
two themselves, and the logarithm is monotone. -/
lemma log_bounds :
    (num.log2 : ℤ) - den.log2 - 1 ≤ Int.log 2 (num / den : ℚ) ∧
      Int.log 2 (num / den : ℚ) < (num.log2 : ℤ) - den.log2 + 1 := by
  have hpos : (0 : ℚ) < num / den := by positivity
  have hn : (2 : ℚ) ^ num.log2 ≤ num ∧ (num : ℚ) < 2 ^ (num.log2 + 1) :=
    ⟨mod_cast Nat.log2_self_le hnum.ne', mod_cast Nat.lt_log2_self⟩
  have hd : (2 : ℚ) ^ den.log2 ≤ den ∧ (den : ℚ) < 2 ^ (den.log2 + 1) :=
    ⟨mod_cast Nat.log2_self_le hden.ne', mod_cast Nat.lt_log2_self⟩
  constructor
  · rw [← Int.zpow_le_iff_le_log (by decide) hpos]
    calc ((2 : ℕ) : ℚ) ^ ((num.log2 : ℤ) - den.log2 - 1)
        = 2 ^ num.log2 / 2 ^ (den.log2 + 1) := by
          rw [sub_sub, zpow_sub₀ (by norm_num)]
          norm_cast
      _ ≤ num / den := div_le_div₀ (by positivity) hn.1 (by positivity) hd.2.le
  · rw [← Int.lt_zpow_iff_log_lt (by decide) hpos]
    calc (num / den : ℚ) < 2 ^ (num.log2 + 1) / 2 ^ den.log2 :=
          div_lt_div₀ hn.2 hd.1 (by positivity) (by positivity)
      _ = ((2 : ℕ) : ℚ) ^ ((num.log2 : ℤ) - den.log2 + 1) := by
          rw [← add_sub_right_comm, zpow_sub₀ (by norm_num)]
          norm_cast

/-- **The binade of a fraction** is the binary logarithm of its value.

**Proof sketch.** Comparing numerator and denominator, one of them shifted by `e`, asks whether the
logarithm is at least `e`. By `log_bounds` there are two candidates for it, and the comparison tells
which of them it is. -/
theorem binade_eq_log : binade num den = Int.log 2 (num / den : ℚ) := by
  have hpos : (0 : ℚ) < num / den := by positivity
  obtain ⟨hlo, hhi⟩ := log_bounds hnum hden
  have hreaches : ∀ e : ℤ,
      den * 2 ^ e.toNat ≤ num * 2 ^ (-e).toNat ↔ e ≤ Int.log 2 (num / den : ℚ) := by
    intro e
    rw [← Int.zpow_le_iff_le_log (by decide) hpos, Nat.cast_ofNat, zpow_eq_div,
      div_le_div_iff₀ (by positivity) (by positivity), mul_comm den]
    norm_cast
  simp only [binade, hreaches]
  split <;> omega

end Binades

/-! ## Equal fractions -/

/-- A common factor does not change how a quotient is rounded.

**Proof sketch.** The factor drops out of the quotient, is a factor of the remainder, and so drops
out of comparing twice the remainder with the denominator. -/
lemma roundHalfEven_mul_right (num den : ℕ) {k : ℕ} (hk : 0 < k) :
    roundHalfEven (num * k) (den * k) = roundHalfEven num den := by
  have hlt : 2 * (num % den * k) < den * k ↔ 2 * (num % den) < den := by
    rw [← mul_assoc, Nat.mul_lt_mul_right hk]
  have heq : 2 * (num % den * k) = den * k ↔ 2 * (num % den) = den := by
    rw [← mul_assoc, Nat.mul_left_inj hk.ne']
  simp only [roundHalfEven, Nat.mul_div_mul_right _ _ hk, Nat.mul_mod_mul_right, hlt, heq]

section Fractions

variable {num den num' den' : ℕ} (hden : 0 < den) (hden' : 0 < den')
  (h : num * den' = num' * den)

include hden hden' h

/-- Equal quotients are rounded alike. -/
lemma roundHalfEven_congr : roundHalfEven num den = roundHalfEven num' den' := by
  rw [← roundHalfEven_mul_right num den hden', h, mul_comm den, roundHalfEven_mul_right _ _ hden]

/-- **Equal fractions have the same nearest double.**

**Proof sketch.** If the numerators are positive, the values agree as rational numbers, so the
binades do (`binade_eq_log`), and with them the spacing. In this spacing the two quotients to be
rounded are equal fractions again, and are rounded alike (`roundHalfEven_congr`). -/
theorem nearest_congr : nearest num den = nearest num' den' := by
  rcases Nat.eq_zero_or_pos num with rfl | hnum
  · have hnum' : num' = 0 := by simpa [hden.ne'] using h
    rw [hnum', nearest_zero, nearest_zero]
  have hnum' : 0 < num' := by
    have hprod := Nat.mul_pos hnum hden'
    rw [h] at hprod
    exact Nat.pos_of_mul_pos_right hprod
  have hvalue : (num / den : ℚ) = num' / den' := by
    rw [div_eq_div_iff (by positivity) (by positivity)]
    exact mod_cast h
  have hbinade : binade num den = binade num' den' := by
    rw [binade_eq_log hnum hden, binade_eq_log hnum' hden', hvalue]
  have hround : ∀ x y : ℕ, roundHalfEven (num * 2 ^ x) (den * 2 ^ y) =
      roundHalfEven (num' * 2 ^ x) (den' * 2 ^ y) := by
    intro x y
    refine roundHalfEven_congr (by positivity) (by positivity) ?_
    calc num * 2 ^ x * (den' * 2 ^ y) = num * den' * (2 ^ x * 2 ^ y) := by ring
      _ = num' * den * (2 ^ x * 2 ^ y) := by rw [h]
      _ = num' * 2 ^ x * (den * 2 ^ y) := by ring
  simp only [nearest, if_neg hnum.ne', if_neg hnum'.ne', hbinade, hround]

end Fractions

/-! ## Order -/

/-- With one denominator, the larger fraction is rounded to the larger integer.

**Proof sketch.** The whole parts are in order, and if they are equal the remainders are. Rounding
adds one at most, and adds it to the larger fraction wherever it does to the smaller one with the
same whole part. -/
lemma roundHalfEven_le_roundHalfEven {num num' : ℕ} (den : ℕ) (h : num ≤ num') :
    roundHalfEven num den ≤ roundHalfEven num' den := by
  have hwhole : num / den ≤ num' / den := Nat.div_le_div_right h
  have hrest : num / den = num' / den → num % den ≤ num' % den := by
    intro heq
    have hnum := Nat.div_add_mod num den
    have hnum' := Nat.div_add_mod num' den
    rw [heq] at hnum
    omega
  simp only [roundHalfEven]
  split <;> split <;> omega

/-- A quotient up to an integer is rounded to one up to it. -/
lemma roundHalfEven_le {num den n : ℕ} (hden : 0 < den) (h : num ≤ n * den) :
    roundHalfEven num den ≤ n :=
  (roundHalfEven_le_roundHalfEven den h).trans_eq (roundHalfEven_mul n hden)

@[inherit_doc roundHalfEven_le]
lemma le_roundHalfEven {num den n : ℕ} (hden : 0 < den) (h : n * den ≤ num) :
    n ≤ roundHalfEven num den :=
  (roundHalfEven_mul n hden).symm.trans_le (roundHalfEven_le_roundHalfEven den h)

section Spacing

variable {num den : ℕ} (hnum : 0 < num) (hden : 0 < den) {q : ℤ}

include hden

/-- In a spacing of `2 ^ q`, the quotient that is rounded is the value over the spacing. -/
lemma cast_quotient (num : ℕ) (q : ℤ) :
    ((num * 2 ^ (-q).toNat : ℕ) : ℚ) = num / den / 2 ^ q * (den * 2 ^ q.toNat : ℕ) := by
  rw [zpow_eq_div]
  push_cast
  field_simp

include hnum

/-- A significand has at most 53 bits, or is the power of two behind them.

**Proof sketch.** The value lies below `2 ^ (q + 53)`, as its logarithm does. Divided by the spacing
it is at most `2 ^ 53`, and a quotient up to an integer is not rounded beyond it. -/
lemma significand_le (hq : binade num den - 52 ≤ q) :
    roundHalfEven (num * 2 ^ (-q).toNat) (den * 2 ^ q.toNat) ≤ 2 ^ 53 := by
  have hpos : (0 : ℚ) < num / den := by positivity
  have hbelow : Int.log 2 (num / den : ℚ) < q + 53 := by
    rw [← binade_eq_log hnum hden]
    omega
  rw [← Int.lt_zpow_iff_log_lt (by decide) hpos, Nat.cast_ofNat] at hbelow
  refine roundHalfEven_le (by positivity) ?_
  rw [← Nat.cast_le (α := ℚ), cast_quotient hden, Nat.cast_mul (2 ^ 53)]
  refine mul_le_mul_of_nonneg_right ?_ (by positivity)
  rw [div_le_iff₀ (by positivity), Nat.cast_pow, Nat.cast_ofNat, ← zpow_natCast,
    ← zpow_add₀ (by norm_num), add_comm]
  exact hbelow.le

/-- A significand has at least 53 bits where the spacing is that of the binade.

**Proof sketch.** As before, from the other side: the value is at least `2 ^ (q + 52)`, so the
quotient is at least `2 ^ 52` and is not rounded below it. -/
lemma le_significand (hq : q ≤ binade num den - 52) :
    2 ^ 52 ≤ roundHalfEven (num * 2 ^ (-q).toNat) (den * 2 ^ q.toNat) := by
  have hpos : (0 : ℚ) < num / den := by positivity
  have habove : q + 52 ≤ Int.log 2 (num / den : ℚ) := by
    rw [← binade_eq_log hnum hden]
    omega
  rw [← Int.zpow_le_iff_le_log (by decide) hpos, Nat.cast_ofNat] at habove
  refine le_roundHalfEven (by positivity) ?_
  rw [← Nat.cast_le (α := ℚ), cast_quotient hden, Nat.cast_mul (2 ^ 52)]
  refine mul_le_mul_of_nonneg_right ?_ (by positivity)
  rw [le_div_iff₀ (by positivity), Nat.cast_pow, Nat.cast_ofNat, ← zpow_natCast,
    ← zpow_add₀ (by norm_num), add_comm]
  exact habove

end Spacing

/-- **The larger fraction has the larger nearest double.**

**Proof sketch.** In one binade the significands are in order. If the binades differ, the lower
significand has come to the end of its binade at most, and the upper one is at least at the
beginning of its own. -/
theorem nearest_mono {num den num' den' : ℕ} (hden : 0 < den) (hden' : 0 < den')
    (h : num * den' ≤ num' * den) : nearest num den ≤ nearest num' den' := by
  rcases Nat.eq_zero_or_pos num with rfl | hnum
  · rw [nearest_zero]
    exact Nat.zero_le _
  have hnum' : 0 < num' :=
    Nat.pos_of_mul_pos_right ((Nat.mul_pos hnum hden').trans_le h)
  have hvalue : (num / den : ℚ) ≤ num' / den' := by
    rw [div_le_div_iff₀ (by positivity) (by positivity)]
    exact mod_cast h
  have hbinade : binade num den ≤ binade num' den' := by
    rw [binade_eq_log hnum hden, binade_eq_log hnum' hden']
    exact Int.log_mono_right (by positivity) hvalue
  simp only [nearest, if_neg hnum.ne', if_neg hnum'.ne']
  refine min_le_min_left _ ?_
  obtain ⟨q, hq⟩ : ∃ q, max (binade num den - 52) (-1074) = q := ⟨_, rfl⟩
  obtain ⟨q', hq'⟩ : ∃ q', max (binade num' den' - 52) (-1074) = q' := ⟨_, rfl⟩
  rw [hq, hq']
  rcases eq_or_lt_of_le (show q ≤ q' by omega) with rfl | hlt
  · refine Nat.add_le_add_left ?_ _
    calc roundHalfEven (num * 2 ^ (-q).toNat) (den * 2 ^ q.toNat)
        = roundHalfEven (num * den' * (2 ^ (-q).toNat)) (den * den' * 2 ^ q.toNat) :=
          roundHalfEven_congr (by positivity) (by positivity) (by ring)
      _ ≤ roundHalfEven (num' * den * (2 ^ (-q).toNat)) (den * den' * 2 ^ q.toNat) :=
          roundHalfEven_le_roundHalfEven _ (Nat.mul_le_mul_right _ h)
      _ = roundHalfEven (num' * 2 ^ (-q).toNat) (den' * 2 ^ q.toNat) :=
          roundHalfEven_congr (by positivity) (by positivity) (by ring)
  · have hlow := significand_le hnum hden (q := q) (by omega)
    have hhigh := le_significand hnum' hden' (q := q') (by omega)
    omega

/-! ## Doubles themselves -/

/-- What a finite magnitude is unpacked to: a significand of at most 53 bits and an exponent, which
is the least there is if the significand is shorter.

**Proof sketch.** In the lowest binade the significand is the magnitude, below `2 ^ 52`, with the
least exponent. Above it the significand is `2 ^ 52` and a remainder, and the exponent comes from a
quotient that lies between `1` and `2046`. -/
lemma unpack_spec {b : ℕ} (hb : b < infinity) :
    (unpack b).1 < 2 ^ 53 ∧ -1074 ≤ (unpack b).2 ∧ (unpack b).2 ≤ 971 ∧
      ((unpack b).2 = -1074 ∨ 2 ^ 52 ≤ (unpack b).1) ∧
      b = ((unpack b).2 + 1074).toNat * 2 ^ 52 + (unpack b).1 := by
  have hmax : b < 2047 * 2 ^ 52 := hb
  unfold unpack
  split
  · exact ⟨by omega, by omega, by omega, .inl rfl, by omega⟩
  · simp only
    omega

/-- **A finite magnitude is the nearest one to its own value.**

**Proof sketch.** The spacing of the doubles around the value is the power of two that the magnitude
is unpacked with: a significand of 53 bits puts the value into the binade of that spacing, and a
shorter one goes with the finest spacing. So the quotient to be rounded is the significand. -/
theorem nearest_unpack {b : ℕ} (hb : b < infinity) :
    nearest ((unpack b).1 * 2 ^ (unpack b).2.toNat) (2 ^ (-(unpack b).2).toNat) = b := by
  rcases Nat.eq_zero_or_pos b with rfl | hpos
  · exact nearest_zero _
  obtain ⟨hm53, hq, -, hnormal, heq⟩ := unpack_spec hb
  generalize unpack b = u at *
  obtain ⟨m, q⟩ := u
  simp only at *
  have hm : 0 < m := by omega
  have hnum : 0 < m * 2 ^ q.toNat := by positivity
  have hden : 0 < 2 ^ (-q).toNat := by positivity
  have hvalue : ((m * 2 ^ q.toNat : ℕ) / (2 ^ (-q).toNat : ℕ) : ℚ) = m * 2 ^ q := by
    rw [zpow_eq_div]
    push_cast
    ring
  have hpos : (0 : ℚ) < m * 2 ^ q := by positivity
  have hbinade := binade_eq_log hnum hden
  rw [hvalue] at hbinade
  have hbelow : Int.log 2 (m * 2 ^ q : ℚ) < q + 53 := by
    have hm53 : (m : ℚ) < 2 ^ 53 := mod_cast hm53
    rw [← Int.lt_zpow_iff_log_lt (by decide) hpos, Nat.cast_ofNat, zpow_add₀ (by norm_num),
      mul_comm]
    exact mul_lt_mul_of_pos_left hm53 (by positivity)
  have hspacing : max (binade (m * 2 ^ q.toNat) (2 ^ (-q).toNat) - 52) (-1074) = q := by
    rcases hnormal with rfl | hm52
    · omega
    · have habove : q + 52 ≤ Int.log 2 (m * 2 ^ q : ℚ) := by
        have hm52 : (2 : ℚ) ^ 52 ≤ m := mod_cast hm52
        rw [← Int.zpow_le_iff_le_log (by decide) hpos, Nat.cast_ofNat, zpow_add₀ (by norm_num),
          mul_comm]
        exact mul_le_mul_of_nonneg_right hm52 (by positivity)
      omega
  have hround : roundHalfEven (m * 2 ^ q.toNat * 2 ^ (-q).toNat)
      (2 ^ (-q).toNat * 2 ^ q.toNat) = m := by
    rw [mul_assoc, mul_comm (2 ^ q.toNat)]
    exact roundHalfEven_mul m (by positivity)
  simp only [nearest, if_neg hnum.ne', hspacing, hround]
  rw [← heq]
  exact Nat.min_eq_right hb.le

end PocketCalculator.Binary64
