import Mathlib.Tactic.Common
import PocketCalculator.Decimal.Shortest
import PocketCalculator.Proofs.Decimal.Value

/-!
# The shortest decimal reads back

The search for the shortest decimal lays ever finer grids over a double. Whatever it finds on a grid
reads back as the double, for that is what is asked of a hit. If nothing is found it ends on a grid
on which the value itself lies, and there the value is written exactly.

## Main results

* `Decimal.search_induction` — what holds of every hit and of the last resort holds of the result.
* `Decimal.magnitude_shortest` — the shortest decimal of a finite double reads back as it.
* `Decimal.point_shortest` — its point is not far away from its digits.
-/

namespace PocketCalculator.Decimal

-- The powers of the definitions that are opened here.
attribute [local instance (2000)] instPowNat

/-! ## Searching grids -/

/-- **What a search gives**: a hit on one of its grids, or else the last resort on the grid after
them.

**Proof sketch.** Induction on the number of grids that are left. A hit on the first of them is the
result; without one the search goes on with the next grid, which has the same last resort. -/
theorem search_induction {b : ℕ} {P : Decimal → Prop} (n : ℕ) (g : ℤ)
    (hit : ∀ g' d, g - n < g' → g' ≤ g → onGrid? b g' = some d → P d)
    (last : P ⟨(gridFraction b (g - n)).1 / (gridFraction b (g - n)).2, g - n⟩) :
    P (search b n g) := by
  induction n generalizing g with
  | zero => simpa [search] using last
  | succ n ih =>
    rw [search]
    cases hgrid : onGrid? b g with
    | some d => exact hit g d (by omega) le_rfl hgrid
    | none =>
      have hstep : g - 1 - (n : ℤ) = g - ((n + 1 : ℕ) : ℤ) := by omega
      refine ih (g - 1) (fun g' d hlo hhi => hit g' d (by omega) (by omega)) ?_
      rwa [hstep]

/-- The grids that are tried for a magnitude end at one on which its value lies.

**Proof sketch.** The search starts at the grid of the leading digit, and as many grids are tried as
there are down to the finer of that of the units and that of the magnitude itself. -/
lemma shortest_induction {b : ℕ} {P : Decimal → Prop} (first : ℤ)
    (hfirst : leading (gridFraction b 0).1 (gridFraction b 0).2 - 1 = first)
    (hit : ∀ g d, min first (min (Binary64.unpack b).2 0) ≤ g → g ≤ first →
      onGrid? b g = some d → P d)
    (last : ∀ g, min first (min (Binary64.unpack b).2 0) = g →
      P ⟨(gridFraction b g).1 / (gridFraction b g).2, g⟩) :
    P (shortest b) := by
  simp only [shortest, hfirst]
  refine search_induction _ _ (fun g d hlo hhi => hit g d (by omega) hhi) (last _ ?_)
  omega

/-! ## Reading back -/

/-- On a grid that is fine enough the value of a finite magnitude is written exactly.

**Proof sketch.** On a grid that is at most as coarse as the spacing of the magnitude, a power of
ten is a multiple of the power of two in the denominator, so the division leaves no remainder. The
decimal has the value of the magnitude, and a magnitude is the nearest one to its own value
(`Binary64.nearest_unpack`). -/
lemma magnitude_exact {b : ℕ} (hb : b < Binary64.infinity) {g : ℤ} (hg : g ≤ 0)
    (hq : g ≤ (Binary64.unpack b).2) :
    magnitude ⟨(gridFraction b g).1 / (gridFraction b g).2, g⟩ = b := by
  have hback := Binary64.nearest_unpack hb
  simp only [gridFraction]
  generalize Binary64.unpack b = u at *
  obtain ⟨m, q⟩ := u
  simp only at *
  have hunit : 10 ^ g.toNat = 1 := by rw [show g.toNat = 0 by omega, Nat.pow_zero]
  obtain ⟨k, hk⟩ : 2 ^ (-q).toNat ∣ 10 ^ (-g).toNat :=
    (pow_dvd_pow_of_dvd (by decide) _).trans (pow_dvd_pow 10 (by omega))
  have hpos : 0 < 2 ^ (-q).toNat := by positivity
  rw [hunit, Nat.mul_one, hk, Nat.mul_left_comm, Nat.mul_div_cancel_left _ hpos, ← hback]
  refine magnitude_eq_nearest hpos ?_
  rw [value, Binary64.zpow_eq_div]
  have hunit : (10 : ℚ) ^ g.toNat = 1 := mod_cast hunit
  have hk : (10 : ℚ) ^ (-g).toNat = 2 ^ (-q).toNat * k := mod_cast hk
  have hk0 : (k : ℚ) ≠ 0 := by
    rintro hzero
    rw [hzero, mul_zero] at hk
    exact absurd hk (by positivity)
  rw [hunit, hk]
  push_cast
  field_simp

/-- **The shortest decimal reads back** as the finite double that it was made for.

**Proof sketch.** A hit is asked to read back, and the last resort lies on a grid that is fine
enough for the exact value (`magnitude_exact`). -/
theorem magnitude_shortest {b : ℕ} (hb : b < Binary64.infinity) : (shortest b).magnitude = b := by
  refine shortest_induction (P := fun d => d.magnitude = b) _ rfl
    (fun g d _ _ hit => magnitude_of_onGrid? hit) fun g hg => ?_
  exact magnitude_exact hb (by omega) (by omega)

/-- Only zero is written without digits.

**Proof sketch.** Without digits the shortest decimal would be zero, and zero reads back as zero. -/
lemma digits_shortest_ne_nil {b : ℕ} (hpos : 0 < b) (hb : b < Binary64.infinity) :
    (shortest b).digits ≠ [] := by
  intro hnil
  have hvalue : (shortest b).value = (⟨0, 0⟩ : Decimal).value := by
    rw [value_eq_digitsValue, hnil, digitsValue, value]
    simp
  have hzero : (⟨0, 0⟩ : Decimal).magnitude = 0 := rfl
  have hmag := magnitude_congr hvalue
  rw [magnitude_shortest hb, hzero] at hmag
  omega

/-! ## The place of the point -/

/-- How large a magnitude on a grid is at most: its significand has 53 bits.

**Proof sketch.** The numerator is a significand times a power of two and a power of ten, and both
the significand and the power of two are estimated by powers of ten. -/
lemma gridFraction_fst_lt (b : ℕ) (g : ℤ) :
    (gridFraction b g).1 < 10 ^ (53 + (Binary64.unpack b).2.toNat + (-g).toNat) := by
  have hm : (Binary64.unpack b).1 < 10 ^ 53 :=
    (Binary64.unpack_fst_lt b).trans (Nat.pow_lt_pow_left (by decide) (by decide))
  have hq : 2 ^ (Binary64.unpack b).2.toNat ≤ 10 ^ (Binary64.unpack b).2.toNat :=
    Nat.pow_le_pow_left (by decide) _
  rw [Nat.pow_add, Nat.pow_add]
  exact Nat.mul_lt_mul_of_pos_right (Nat.mul_lt_mul_of_lt_of_le hm hq (by positivity))
    (by positivity)

/-- The order of magnitude of a finite double is not far from that of the units.

**Proof sketch.** Digits before the point are counted on the quotient, which is at most the
numerator (`gridFraction_fst_lt`), and zeros after it on the inverse, which is at most the
denominator. The exponent of a finite double bounds both. -/
lemma leading_bounds {b : ℕ} (hb : b < Binary64.infinity) :
    -1073 ≤ leading (gridFraction b 0).1 (gridFraction b 0).2 ∧
      leading (gridFraction b 0).1 (gridFraction b 0).2 ≤ 1024 := by
  obtain ⟨-, hlo, hhi, -⟩ := Binary64.unpack_spec hb
  have hden : (gridFraction b 0).2 ≤ 10 ^ (-(Binary64.unpack b).2).toNat := by
    have hpow : 2 ^ (-(Binary64.unpack b).2).toNat ≤ 10 ^ (-(Binary64.unpack b).2).toNat :=
      Nat.pow_le_pow_left (by decide) _
    simpa [gridFraction] using hpow
  have hwhole := digitCount_le_iff.mpr
    ((Nat.div_le_self _ (gridFraction b 0).2).trans_lt (gridFraction_fst_lt b 0))
  have hpart : digitCount (((gridFraction b 0).2 - 1) / (gridFraction b 0).1) ≤
      (-(Binary64.unpack b).2).toNat := by
    refine digitCount_le_iff.mpr ((Nat.div_le_self _ _).trans_lt ?_)
    have hpos : 0 < 10 ^ (-(Binary64.unpack b).2).toNat := by positivity
    omega
  unfold leading
  split <;> omega

/-- A hit on a grid is one of the two neighbours of the value.

**Proof sketch.** The two candidates on a grid are the quotient, rounded down, and its successor,
whichever of them is tried first. -/
lemma onGrid?_bounds {b : ℕ} {g : ℤ} {d : Decimal} (h : onGrid? b g = some d) :
    d.exponent = g ∧ d.coefficient ≤ (gridFraction b g).1 / (gridFraction b g).2 + 1 := by
  simp only [onGrid?] at h
  split at h
  · split at h
    · obtain rfl := Option.some.inj h
      exact ⟨rfl, le_rfl⟩
    · obtain rfl := Option.some.inj h
      exact ⟨rfl, Nat.le_succ _⟩
  · split at h
    · obtain rfl := Option.some.inj h
      exact ⟨rfl, le_rfl⟩
    · simp at h

/-- **The point of the shortest decimal** is not far from its digits. The bounds are wider than they
have to be.

**Proof sketch.** All grids that are tried lie between the finest spacing of doubles and the largest
order of magnitude (`leading_bounds`). A hit and the last resort are at most one more than the value
on the grid, so that their numbers of digits are bounded as well, and the point is where the digits
end on the grid. -/
theorem point_shortest {b : ℕ} (hb : b < Binary64.infinity) :
    -1073 ≤ (shortest b).point ∧ (shortest b).point ≤ 3122 := by
  obtain ⟨hlo, hhi⟩ := leading_bounds hb
  obtain ⟨-, hqlo, hqhi, -⟩ := Binary64.unpack_spec hb
  have hgrid : ∀ (d : Decimal) (g : ℤ), -1074 ≤ g → g ≤ 1023 → d.exponent = g →
      d.coefficient ≤ (gridFraction b g).1 / (gridFraction b g).2 + 1 →
      -1073 ≤ d.point ∧ d.point ≤ 3122 := by
    intro d g hg hg' hexp hcoeff
    have hlength : (Nat.toDigits 10 d.coefficient).length ≤
        53 + (Binary64.unpack b).2.toNat + (-g).toNat + 1 := by
      rw [Nat.length_toDigits_le_iff (by decide) (by omega), Nat.pow_succ]
      have hnum := gridFraction_fst_lt b g
      have hdiv := Nat.div_le_self (gridFraction b g).1 (gridFraction b g).2
      omega
    have hpos := Nat.length_toDigits_pos (b := 10) (n := d.coefficient)
    rw [point, hexp]
    omega
  refine shortest_induction (P := fun d => -1073 ≤ d.point ∧ d.point ≤ 3122) _ rfl
    (fun g d hglo hghi hit => ?_) fun g hg => ?_
  · obtain ⟨hexp, hcoeff⟩ := onGrid?_bounds hit
    exact hgrid d g (by omega) (by omega) hexp hcoeff
  · exact hgrid _ g (by omega) (by omega) rfl (Nat.le_succ _)

end PocketCalculator.Decimal
