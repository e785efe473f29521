import Mathlib
import PocketCalculator.Proofs.Binary64.Bits
import PocketCalculator.Proofs.Binary64.Rounding

/-!
# Exact operations

The operations on doubles round, and what they round is the exact result. If that is itself the
value of a double, then it is what they give: nothing is left to be rounded. Only the sign of a zero
is not decided by its value.

An operation first brings its exact result into some power of two and then shifts it into the
spacing that the binade of the result has. A value that a double has is a multiple of this spacing,
so that the shift loses nothing.

## Main definitions

* `Binary64.value`, `Binary64.HasValue` — the number that a finite double stands for.
* `Binary64.IsCanonical` — a significand and an exponent as a finite double has them.
* `Binary64.Carries` — a double taken apart that stands for a number.

## Main results

* `Binary64.hasValue_iff` — the value of a double and of its parts.
* `Binary64.HasValue.neg`, `Binary64.HasValue.add`, `Binary64.HasValue.sub`,
  `Binary64.HasValue.mul`, `Binary64.HasValue.div` — what operations give if a double has it.
* `Binary64.exists_hasValue_int` — the whole numbers up to `2 ^ 53` are values of doubles.
-/

namespace PocketCalculator.Binary64

open Float.Model Float.Model.UnpackedFloat

-- The powers of the definitions that are opened here.
attribute [local instance (2000)] instPowNat

/-! ## Values -/

/-- The value of a finite double. -/
def value (v : Float) : ℚ :=
  (if negative v then -1 else 1) * ((unpack (magnitude v)).1 * 2 ^ (unpack (magnitude v)).2)

/-- `HasValue v x` says that the double `v` is finite and stands for the number `x`. Both zeros
stand for zero. -/
structure HasValue (v : Float) (x : ℚ) : Prop where
  /-- The double is neither infinite nor NaN. -/
  finite : magnitude v < infinity
  /-- Its sign, significand and exponent make up the number. -/
  value_eq : value v = x

/-- A significand and an exponent as a finite double has them. -/
structure IsCanonical (m : ℕ) (q : ℤ) : Prop where
  /-- The significand has at most 53 bits. -/
  significand_lt : m < 2 ^ 53
  /-- The finest spacing is that of the subnormal numbers. -/
  le_exponent : -1074 ≤ q
  /-- Values beyond the largest double are infinite. -/
  exponent_le : q ≤ 971
  /-- In any spacing but the finest the significand has all its bits. -/
  normal : q = -1074 ∨ 2 ^ 52 ≤ m

/-- What a finite magnitude is unpacked to is canonical. -/
lemma isCanonical_unpack {b : ℕ} (hb : b < infinity) : IsCanonical (unpack b).1 (unpack b).2 := by
  obtain ⟨hlt, hle, hle', hnormal, -⟩ := unpack_spec hb
  exact ⟨hlt, hle, hle', hnormal⟩

/-- Every canonical significand and exponent are unpacked from some finite magnitude.

**Proof sketch.** The magnitude is the exponent counted from the lowest one, times `2 ^ 52`, and the
significand. The leading bit of a significand with 53 bits carries over into the exponent, which is
how `unpack` takes it off again. -/
lemma IsCanonical.exists_unpack {m : ℕ} {q : ℤ} (h : IsCanonical m q) :
    ∃ b, b < infinity ∧ unpack b = (m, q) := by
  obtain ⟨hlt, hle, hle', hnormal⟩ := h
  refine ⟨(q + 1074).toNat * 2 ^ 52 + m, ?_, ?_⟩
  · change _ < 2047 * 2 ^ 52
    omega
  · unfold unpack
    split
    · exact Prod.ext (by simp only; omega) (by simp only; omega)
    · exact Prod.ext (by simp only; omega) (by simp only; omega)

/-! ## Signs -/

/-- The number that a sign multiplies by. -/
def unit : UnpackedFloat.Sign → ℚ
  | .positive => 1
  | .negative => -1

/-- The number that a sign bit multiplies by. -/
lemma unit_sign (negative : Bool) : unit (sign negative) = if negative then -1 else 1 := by
  cases negative <;> rfl

/-- Each sign has a sign bit. -/
lemma exists_sign (s : UnpackedFloat.Sign) : ∃ negative, sign negative = s := by
  cases s
  · exact ⟨true, rfl⟩
  · exact ⟨false, rfl⟩

/-- The opposite sign multiplies by the opposite number. -/
lemma unit_neg (s : UnpackedFloat.Sign) : unit (-s) = -unit s := by
  cases s
  · exact (neg_neg 1).symm
  · rfl

/-- The sign of a product multiplies by the product of the two numbers. -/
lemma unit_mul (s t : UnpackedFloat.Sign) : unit (s * t) = unit s * unit t := by
  revert s t
  decide +kernel

/-- The sign of a quotient multiplies by the quotient of the two numbers. -/
lemma unit_div (s t : UnpackedFloat.Sign) : unit (s / t) = unit s / unit t := by
  revert s t
  decide +kernel

/-- A sign applied to an integer multiplies it. -/
lemma cast_apply (s : UnpackedFloat.Sign) (n : ℤ) : (s.apply n : ℚ) = unit s * n := by
  cases s
  · simp [UnpackedFloat.Sign.apply, unit]
  · simp [UnpackedFloat.Sign.apply, unit]

/-- A positive number and its sign are told by what they make up.

**Proof sketch.** With equal signs the equation loses its sign, and with different ones a positive
number would equal a negative one. -/
lemma unit_mul_inj {s t : UnpackedFloat.Sign} {x y : ℚ} (hx : 0 < x) (hy : 0 < y)
    (h : unit s * x = unit t * y) : s = t ∧ x = y := by
  cases s <;> cases t <;> simp only [unit] at h
  · exact ⟨rfl, by linarith only [h]⟩
  · linarith only [h, hx, hy]
  · linarith only [h, hx, hy]
  · exact ⟨rfl, by linarith only [h]⟩

/-! ## Doubles taken apart -/

/-- `Carries u x` says that a double taken apart as `u` is finite, as doubles are, and stands for
the number `x`. -/
inductive Carries : UnpackedFloat → ℚ → Prop
  /-- A zero has either sign. -/
  | zero (s : UnpackedFloat.Sign) : Carries (.zero s) 0
  /-- Any other finite double has a significand that is not zero. -/
  | finite (s : UnpackedFloat.Sign) {m : ℕ} {q : ℤ} (hm : 0 < m) (canonical : IsCanonical m q) :
    Carries (.finite s m q hm) (unit s * (m * 2 ^ q))

/-- A sign and a finite magnitude carry what they make up.

**Proof sketch.** A finite magnitude with a significand is unpacked to a finite double, in canonical
form (`isCanonical_unpack`), and one without a significand to a zero. -/
lemma carries_unpacked {b : ℕ} (hb : b < infinity) (s : UnpackedFloat.Sign) :
    Carries (unpacked s b) (unit s * ((unpack b).1 * 2 ^ (unpack b).2)) := by
  unfold unpacked
  rw [if_neg hb.ne]
  split
  · next hpos => exact .finite s hpos (isCanonical_unpack hb)
  · next hzero =>
    rw [Nat.eq_zero_of_not_pos hzero, Nat.cast_zero, zero_mul, mul_zero]
    exact .zero s

/-- What carries a number is a sign and a finite magnitude that make it up.

**Proof sketch.** A zero has the magnitude `0`, and a canonical significand and exponent are
unpacked from some magnitude (`IsCanonical.exists_unpack`). Either sign has a sign bit. -/
lemma Carries.exists_unpacked {u : UnpackedFloat} {x : ℚ} (h : Carries u x) :
    ∃ negative b, b < infinity ∧ u = unpacked (sign negative) b ∧
      x = unit (sign negative) * ((unpack b).1 * 2 ^ (unpack b).2) := by
  cases h with
  | zero s =>
    obtain ⟨negative, rfl⟩ := exists_sign s
    exact ⟨negative, 0, by decide, rfl, by simp [unpack]⟩
  | @finite s m q hm canonical =>
    obtain ⟨negative, rfl⟩ := exists_sign s
    obtain ⟨b, hb, hunpack⟩ := canonical.exists_unpack
    refine ⟨negative, b, hb, ?_, by rw [hunpack]⟩
    simp only [unpacked, if_neg hb.ne, hunpack, dif_pos hm]

/-- The value of a double that was put together from a sign and a finite magnitude. -/
lemma hasValue_ofMagnitude (s : Bool) {b : ℕ} (hb : b < infinity) :
    HasValue (ofMagnitude s b) (unit (sign s) * ((unpack b).1 * 2 ^ (unpack b).2)) where
  finite := by rwa [magnitude_ofMagnitude hb.le]
  value_eq := by rw [value, magnitude_ofMagnitude hb.le, negative_ofMagnitude hb.le, unit_sign]

/-- **The value of a double** is that of its parts.

**Proof sketch.** A double is the one of its sign and magnitude, and if the magnitude is finite, its
parts carry what they make up (`carries_unpacked`). Conversely, what carries a number is unpacked
from some sign and finite magnitude, and the double is the one that is packed from these. -/
theorem hasValue_iff {v : Float} {x : ℚ} : HasValue v x ↔ Carries v.toModel.unpack x := by
  constructor
  · rintro ⟨hfin, rfl⟩
    have hcarries := carries_unpacked hfin (sign (negative v))
    rw [← unpack_ofMagnitude hfin.le, ofMagnitude_magnitude, unit_sign] at hcarries
    exact hcarries
  · intro h
    obtain ⟨s, b, hb, hu, rfl⟩ := h.exists_unpacked
    have hv : v = ofMagnitude s b := by
      rw [ofMagnitude_eq_pack hb.le, ← hu]
      exact (ofBits_toBits v).symm
    rw [hv]
    exact hasValue_ofMagnitude s hb

/-- A double put together from what carries a number has this number.

**Proof sketch.** The parts are those of some sign and finite magnitude, so the double that is
packed from them is the one of this sign and magnitude, and taken apart it gives them back. -/
lemma Carries.hasValue_pack {u : UnpackedFloat} {x : ℚ} (h : Carries u x) :
    HasValue ⟨Float.Model.pack u⟩ x := by
  obtain ⟨s, b, hb, rfl, rfl⟩ := h.exists_unpacked
  rw [hasValue_iff, ← ofMagnitude_eq_pack hb.le, unpack_ofMagnitude hb.le]
  exact carries_unpacked hb (sign s)

/-! ## Rounding what needs no rounding -/

/-- The position of the leading bit is the logarithm of the value.

**Proof sketch.** The significand lies between the power of two of its own logarithm and the next
one. Times `2 ^ e`, these bounds enclose the value, and one power of two below a number and the next
above it determine the logarithm. -/
lemma totalExponent_eq_log {m : ℕ} (hm : 0 < m) (e : ℤ) :
    totalExponent m e = Int.log 2 (m * 2 ^ e : ℚ) + 1 := by
  have hpos : (0 : ℚ) < m * 2 ^ e := by positivity
  have hlow : (2 : ℚ) ^ m.log2 ≤ m := mod_cast Nat.log2_self_le hm.ne'
  have hhigh : (m : ℚ) < 2 ^ (m.log2 + 1) := mod_cast Nat.lt_log2_self
  have hle : (m.log2 : ℤ) + e ≤ Int.log 2 (m * 2 ^ e : ℚ) := by
    rw [← Int.zpow_le_iff_le_log (by decide) hpos, Nat.cast_ofNat, zpow_add₀ (by norm_num),
      zpow_natCast]
    exact mul_le_mul_of_nonneg_right hlow (by positivity)
  have hlt : Int.log 2 (m * 2 ^ e : ℚ) < (m.log2 : ℤ) + 1 + e := by
    rw [← Int.lt_zpow_iff_log_lt (by decide) hpos, Nat.cast_ofNat, zpow_add₀ (by norm_num)]
    exact mul_lt_mul_of_pos_right (mod_cast hhigh) (by positivity)
  unfold totalExponent
  omega

/-- Shifting zeros out at the end loses nothing.

**Proof sketch.** Induction on the number of places. One place takes a zero off the end, and the
sticky bits, which note what has been shifted out, stay unset. -/
lemma shiftRight_mul_two_pow (m k : ℕ) :
    (⟨m * 2 ^ k, false, false⟩ : ExtendedMantissa) >>> k = ⟨m, false, false⟩ := by
  induction k generalizing m with
  | zero => simp [HShiftRight.hShiftRight, Nat.repeat]
  | succ k ih =>
    have hih : Nat.repeat ExtendedMantissa.shiftRightOne k ⟨2 * m * 2 ^ k, false, false⟩ =
      ⟨2 * m, false, false⟩ := ih (2 * m)
    change (Nat.repeat ExtendedMantissa.shiftRightOne k _).shiftRightOne = _
    rw [pow_succ, mul_comm (2 ^ k), ← mul_assoc, mul_comm m, hih]
    simp [ExtendedMantissa.shiftRightOne]

/-- A significand may be shifted if its exponent is made smaller. -/
lemma cast_mul_two_pow (m k : ℕ) (e : ℤ) :
    ((m * 2 ^ k : ℕ) * 2 ^ (e - k) : ℚ) = m * 2 ^ e := by
  rw [zpow_sub₀ (by norm_num), zpow_natCast, Nat.cast_mul, Nat.cast_pow, Nat.cast_ofNat,
    mul_assoc, mul_div_cancel₀ _ (by positivity)]

/-- Two significands of one value are multiples of each other by a power of two.

**Proof sketch.** The exponents differ by some natural number `k`. Dividing the equation by the
smaller power of two leaves `m = M * 2 ^ k`, first among rational numbers and then among natural
ones. -/
lemma eq_mul_two_pow {m M : ℕ} {e q : ℤ} (hvalue : (m * 2 ^ e : ℚ) = M * 2 ^ q) (he : e ≤ q) :
    ∃ k : ℕ, m = M * 2 ^ k ∧ e = q - k := by
  obtain ⟨k, hk⟩ := Int.eq_ofNat_of_zero_le (Int.sub_nonneg.mpr he)
  obtain rfl : q = e + k := by omega
  refine ⟨k, ?_, by omega⟩
  have hpow : (2 : ℚ) ^ e ≠ 0 := by positivity
  rw [zpow_add₀ (by norm_num), zpow_natCast, mul_left_comm, mul_comm _ ((2 : ℚ) ^ e)] at hvalue
  have hcast : (m : ℚ) = M * 2 ^ k := mul_left_cancel₀ hpow hvalue
  exact mod_cast hcast

section Rounding

variable {m M : ℕ} {e q : ℤ} (hM : 0 < M) (hcanonical : IsCanonical M q)

include hM hcanonical

/-- The spacing around the value of a double is that of its significand.

**Proof sketch.** A significand with all its 53 bits has its leading bit at `q + 53`, and the
spacing is 53 places below. A shorter one comes with the finest spacing, which is a lower bound of
all. -/
lemma targetExponent_of_isCanonical :
    Format.binary64.targetExponent (totalExponent M q) = q := by
  obtain ⟨hlt, hle, -, hnormal⟩ := hcanonical
  have hlog : M.log2 < 53 := (Nat.log2_lt hM.ne').mpr hlt
  change max ((M.log2 : ℤ) + 1 + q - 53) (-1074) = q
  rcases hnormal with rfl | h52
  · omega
  · have hlog' : 52 ≤ M.log2 := (Nat.le_log2 hM.ne').mpr h52
    omega

variable (hm : 0 < m) (hvalue : (m * 2 ^ e : ℚ) = M * 2 ^ q)

include hm hvalue

/-- Another significand and exponent of the same value have the same spacing around them. -/
lemma targetExponent_of_value : Format.binary64.targetExponent (totalExponent m e) = q := by
  rw [totalExponent_eq_log hm, hvalue, ← totalExponent_eq_log hM,
    targetExponent_of_isCanonical hM hcanonical]

/-- **What is not finer than the spacing is not rounded.**

**Proof sketch.** The spacing around the value is `q` (`targetExponent_of_value`). The significand
is the one sought times a power of two, and shifting it into the spacing shifts out only zeros.
Nothing was lost, so that the shifted significand is rounded to itself, and rounding a second time,
in case the first carried over, changes nothing either. -/
theorem roundWithAccuracy_of_value (s : UnpackedFloat.Sign) (he : e ≤ q) :
    roundWithAccuracy Format.binary64 s m e .exact = .finite s M q hM := by
  have hshift : ∀ {m : ℕ} {e : ℤ}, 0 < m → (m * 2 ^ e : ℚ) = M * 2 ^ q → e ≤ q →
      shiftToTargetExponent Format.binary64 m e .exact = (⟨M, false, false⟩, q) := by
    intro m e hm hvalue he
    have htarget := targetExponent_of_value hM hcanonical hm hvalue
    obtain ⟨k, rfl, rfl⟩ := eq_mul_two_pow hvalue he
    have hk : (q - (q - k)).toNat = k := by omega
    simp only [shiftToTargetExponent, htarget, shiftToExponent, hk,
      ExtendedMantissa.ofMantissaAndAccuracy, shiftRight_mul_two_pow, sub_add_cancel]
  have hrounded : (⟨M, false, false⟩ : ExtendedMantissa).roundedMantissa = M := rfl
  simp only [roundWithAccuracy, hshift hm hvalue he, hrounded, hshift hM rfl le_rfl]
  exact dif_neg hM.ne'

/-- A value that a double has is rounded to it from every power of two.

**Proof sketch.** An exponent up to that of the spacing is not decreased, and
`roundWithAccuracy_of_value` applies as it stands. A larger one is first decreased to the spacing,
by shifting zeros in, which does not change the value. -/
lemma round_of_value (s : UnpackedFloat.Sign) :
    UnpackedFloat.round Format.binary64 s m e = .finite s M q hM := by
  have htarget := targetExponent_of_value hM hcanonical hm hvalue
  rcases Int.le_total e q with he | he
  · have hk : (e - q).toNat = 0 := by omega
    simp only [UnpackedFloat.round, htarget, decreaseExponent, hk, Nat.shiftLeft_zero,
      Nat.cast_zero, sub_zero]
    exact roundWithAccuracy_of_value hM hcanonical hm hvalue s he
  · obtain ⟨k, rfl, rfl⟩ := eq_mul_two_pow hvalue.symm he
    have hk : (e - (e - k)).toNat = k := by omega
    simp only [UnpackedFloat.round, htarget, decreaseExponent, hk, Nat.shiftLeft_eq]
    exact roundWithAccuracy_of_value hM hcanonical hM rfl s le_rfl

end Rounding

/-! ## Operations on doubles taken apart -/

/-- A positive number with a sign is carried by a significand and an exponent with that sign.

**Proof sketch.** A zero is excluded, because the number is positive. Otherwise sign and number
agree with those of the significand, as both numbers are positive (`unit_mul_inj`). -/
lemma Carries.exists_finite {u : UnpackedFloat} {s : UnpackedFloat.Sign} {x : ℚ} (hx : 0 < x)
    (h : Carries u (unit s * x)) :
    ∃ (m : ℕ) (q : ℤ) (hm : 0 < m), IsCanonical m q ∧ x = m * 2 ^ q ∧ u = .finite s m q hm := by
  generalize hy : unit s * x = y at h
  cases h with
  | zero t =>
    have hunit : unit s ≠ 0 := by cases s <;> norm_num [unit]
    exact absurd hy (mul_ne_zero hunit hx.ne')
  | @finite t m q hm canonical =>
    obtain ⟨rfl, rfl⟩ := unit_mul_inj hx (by positivity) hy
    exact ⟨m, q, hm, canonical, rfl, rfl⟩

variable {u u' w : UnpackedFloat} {x y : ℚ}

/-- What needs no rounding is carried by what rounding it once gives, if its exponent is not larger
than that of a double of the same value.

**Proof sketch.** That some double carries the value gives a canonical significand and exponent of
it (`Carries.exists_finite`), and these are what is rounded to. -/
lemma Carries.roundWithAccuracy {s : UnpackedFloat.Sign} {m : ℕ} {e : ℤ} (hm : 0 < m)
    (h : Carries w (unit s * (m * 2 ^ e)))
    (he : ∀ {M : ℕ} {q : ℤ}, 0 < M → IsCanonical M q → (m * 2 ^ e : ℚ) = M * 2 ^ q → e ≤ q) :
    Carries (UnpackedFloat.roundWithAccuracy Format.binary64 s m e .exact)
      (unit s * (m * 2 ^ e)) := by
  obtain ⟨M, q, hM, canonical, hvalue, rfl⟩ := h.exists_finite (by positivity)
  rw [roundWithAccuracy_of_value hM canonical hm hvalue s (he hM canonical hvalue), hvalue]
  exact .finite s hM canonical

/-- The same of an integer and a power of two, whichever the exponent.

**Proof sketch.** A positive integer is rounded with the positive sign, a negative one as its
absolute value with the negative sign, and both come out as they are by `round_of_value`. Zero is a
zero of the given sign. -/
lemma Carries.normalize {n : ℤ} {e : ℤ} (s : UnpackedFloat.Sign) (h : Carries w (n * 2 ^ e)) :
    Carries (UnpackedFloat.normalize Format.binary64 n e s) (n * 2 ^ e) := by
  have hround : ∀ (t : UnpackedFloat.Sign) (m : ℕ), 0 < m → (n : ℚ) = unit t * m →
      Carries (UnpackedFloat.round Format.binary64 t m e) (n * 2 ^ e) := by
    intro t m hm hn
    rw [hn, mul_assoc] at h ⊢
    obtain ⟨M, q, hM, canonical, hvalue, rfl⟩ := h.exists_finite (by positivity)
    rw [round_of_value hM canonical hm hvalue t, hvalue]
    exact .finite t hM canonical
  unfold UnpackedFloat.normalize
  rcases lt_trichotomy n 0 with hn | rfl | hn
  · rw [compare_lt_iff_lt.mpr hn]
    refine hround .negative _ (by omega) ?_
    have hcast : ((-n).toNat : ℤ) = -n := Int.toNat_of_nonneg (by omega)
    rw [unit, ← Int.cast_natCast, hcast]
    push_cast
    ring
  · rw [compare_eq_iff_eq.mpr rfl, Int.cast_zero, zero_mul]
    exact .zero s
  · rw [compare_gt_iff_gt.mpr hn]
    refine hround .positive _ (by omega) ?_
    rw [unit, one_mul, ← Int.cast_natCast, Int.toNat_of_nonneg hn.le]

/-- The negative carries the negative number. -/
lemma Carries.neg (h : Carries u x) : Carries u.neg (-x) := by
  cases h with
  | zero s =>
    rw [neg_zero]
    exact .zero (-s)
  | finite s hm canonical =>
    rw [← neg_mul, ← unit_neg]
    exact .finite (-s) hm canonical

/-- The exponent of a significand can be made smaller. -/
lemma decreaseExponent_value {m : ℕ} {e t : ℤ} (h : t ≤ e) :
    ((decreaseExponent m e t).1 * 2 ^ t : ℚ) = m * 2 ^ e := by
  obtain ⟨k, hk⟩ := Int.eq_ofNat_of_zero_le (Int.sub_nonneg.mpr h)
  obtain rfl : t = e - k := by omega
  simp only [decreaseExponent, hk, Int.toNat_natCast, Nat.shiftLeft_eq, cast_mul_two_pow]

/-- **Addition is exact** if it can be.

**Proof sketch.** With a zero the other number is what is left. Otherwise both significands are
brought to the smaller of the two exponents, which loses nothing (`decreaseExponent_value`), and are
added as integers with signs. The sum is rounded, and rounded to itself, as some double carries it
(`Carries.normalize`). -/
theorem Carries.add (hu : Carries u x) (hu' : Carries u' y) (h : Carries w (x + y)) :
    Carries (UnpackedFloat.add Format.binary64 u u') (x + y) := by
  cases hu with
  | zero s =>
    cases hu' with
    | zero t =>
      rw [add_zero]
      simp only [UnpackedFloat.add]
      split <;> exact .zero _
    | finite t hm' canonical' =>
      rw [zero_add]
      exact .finite t hm' canonical'
  | @finite s m q hm canonical =>
    cases hu' with
    | zero t =>
      rw [add_zero]
      exact .finite s hm canonical
    | @finite t m' q' hm' canonical' =>
      have hsum : unit s * (m * 2 ^ q) + unit t * (m' * 2 ^ q') =
          ((s.apply (decreaseExponent m q (min q q')).1 +
            t.apply (decreaseExponent m' q' (min q q')).1 : ℤ) : ℚ) * 2 ^ min q q' := by
        rw [Int.cast_add, cast_apply, cast_apply, add_mul, mul_assoc, mul_assoc, Int.cast_natCast,
          Int.cast_natCast, decreaseExponent_value (min_le_left q q'),
          decreaseExponent_value (min_le_right q q')]
      rw [hsum] at h ⊢
      exact h.normalize .positive

/-- Subtracting is adding the negative.

**Proof sketch.** Case by case; for two finite doubles, the negative sign turns the integer that is
added into the one that is subtracted. -/
lemma unpacked_sub_eq (u u' : UnpackedFloat) :
    UnpackedFloat.sub Format.binary64 u u' = UnpackedFloat.add Format.binary64 u u'.neg := by
  cases u with
  | infinity s => cases u' <;> rfl
  | notANumber => cases u' <;> rfl
  | zero s => cases u' <;> rfl
  | finite s m q hm =>
    cases u' with
    | finite t m' q' hm' =>
      have hsign : ∀ n : ℤ, (-t).apply n = -t.apply n := by
        intro n
        cases t
        · exact (neg_neg n).symm
        · rfl
      simp only [UnpackedFloat.sub, UnpackedFloat.neg, UnpackedFloat.add, hsign, Int.sub_eq_add_neg]
    | _ => rfl

/-- A product of two significands is not coarser than the spacing around it.

**Proof sketch.** If it were coarser, the product would be a proper divisor, by a power of two, of a
significand with 53 bits at most, so that it had less than 52 bits. Then so had both factors, their
exponents would both be the least there is, and their sum would lie below any exponent. -/
lemma exponent_add_le {m m' M : ℕ} {q q' p : ℤ} (hm : 0 < m) (hm' : 0 < m')
    (canonical : IsCanonical m q) (canonical' : IsCanonical m' q') (hM : IsCanonical M p)
    (hvalue : ((m * m' : ℕ) * 2 ^ (q + q') : ℚ) = M * 2 ^ p) : q + q' ≤ p := by
  by_contra hlt
  obtain ⟨k, hk, hp⟩ := eq_mul_two_pow hvalue.symm (by omega)
  have hk0 : k ≠ 0 := by omega
  -- both significands are short, so that both exponents are the least there is
  have hshort : m * m' < 2 ^ 52 := by
    have htwo : 2 ≤ 2 ^ k := Nat.le_self_pow hk0 2
    have hdouble := Nat.mul_le_mul_left (m * m') htwo
    have hM53 := hM.significand_lt
    omega
  have hle : m ≤ m * m' := Nat.le_mul_of_pos_right m hm'
  have hle' : m' ≤ m * m' := Nat.le_mul_of_pos_left m' hm
  have hq := canonical.normal.resolve_right (by omega)
  have hq' := canonical'.normal.resolve_right (by omega)
  have hle_p := hM.le_exponent
  omega

/-- **Multiplication is exact** if it can be.

**Proof sketch.** With a zero the product is one. Otherwise the significands are multiplied and the
exponents added, and the product is rounded to itself, as some double carries it and it is not
coarser than the spacing (`exponent_add_le`). -/
theorem Carries.mul (hu : Carries u x) (hu' : Carries u' y) (h : Carries w (x * y)) :
    Carries (UnpackedFloat.mul Format.binary64 u u') (x * y) := by
  cases hu with
  | zero s =>
    rw [zero_mul]
    cases hu' <;> exact .zero _
  | @finite s m q hm canonical =>
    cases hu' with
    | zero t =>
      rw [mul_zero]
      exact .zero (s * t)
    | @finite t m' q' hm' canonical' =>
      have hproduct : unit s * (m * 2 ^ q) * (unit t * (m' * 2 ^ q')) =
          unit (s * t) * ((m * m' : ℕ) * 2 ^ (q + q')) := by
        rw [unit_mul, zpow_add₀ (by norm_num)]
        push_cast
        ring
      rw [hproduct] at h ⊢
      exact h.roundWithAccuracy (Nat.mul_pos hm hm')
        fun _ => exponent_add_le hm hm' canonical canonical'

/-- The leading bits of two numbers are at most as far apart as the exponent and the 53 bits of
their quotient allow.

**Proof sketch.** The dividend is the divisor times a significand below `2 ^ 53` times `2 ^ p`, and
the logarithm of a product exceeds the sum of the logarithms by one at most. -/
lemma totalExponent_sub_le {m m' M : ℕ} {q q' p : ℤ} (hm : 0 < m) (hm' : 0 < m') (hM : M < 2 ^ 53)
    (hvalue : (m * 2 ^ q : ℚ) = M * 2 ^ p * (m' * 2 ^ q')) :
    totalExponent m q - totalExponent m' q' ≤ p + 53 := by
  have hpos : (0 : ℚ) < m * 2 ^ q := by positivity
  have hlog : Int.log 2 (m * 2 ^ q : ℚ) < p + 53 + (Int.log 2 (m' * 2 ^ q' : ℚ) + 1) := by
    have hM53 : (M : ℚ) < 2 ^ 53 := mod_cast hM
    rw [← Int.lt_zpow_iff_log_lt (by decide) hpos, hvalue, Nat.cast_ofNat,
      zpow_add₀ (by norm_num), zpow_add₀ (by norm_num) p, mul_comm (2 ^ p : ℚ)]
    refine mul_lt_mul'' ?_ (mod_cast Int.lt_zpow_succ_log_self (by decide) _) (by positivity)
      (by positivity)
    exact mul_lt_mul_of_pos_right (mod_cast hM53) (by positivity)
  rw [totalExponent_eq_log hm, totalExponent_eq_log hm']
  omega

/-- A quotient of two significands has no remainder if it is taken finely enough, and it is.

**Proof sketch.** The dividend is shifted to the finer of the difference of the exponents and the
spacing that the leading bits suggest, which is not coarser than that of the quotient
(`totalExponent_sub_le`). There it is `M * 2 ^ k` times the divisor for some `k`, so nothing
remains. -/
lemma divCore_of_value {m m' M : ℕ} {q q' p : ℤ} (hm : 0 < m) (hm' : 0 < m') (hM : 0 < M)
    (canonical : IsCanonical M p) (hvalue : (m * 2 ^ q : ℚ) = M * 2 ^ p * (m' * 2 ^ q')) :
    ∃ k : ℕ, divCore Format.binary64 m q m' q' = (M * 2 ^ k, p - k, Accuracy.exact) := by
  have htotal := totalExponent_sub_le hm hm' canonical.significand_lt hvalue
  obtain ⟨t, ht⟩ : ∃ t, min (q - q')
      (Format.binary64.targetExponent (totalExponent m q - totalExponent m' q')) = t := ⟨_, rfl⟩
  have htarget : Format.binary64.targetExponent (totalExponent m q - totalExponent m' q') ≤ p := by
    have hle := canonical.le_exponent
    change max (_ - 53) (-1074) ≤ p
    omega
  have hquotient : ((m * 2 ^ (q - q' - t).toNat : ℕ) * 2 ^ t : ℚ) = (M * m' : ℕ) * 2 ^ p := by
    obtain ⟨j, hj⟩ := Int.eq_ofNat_of_zero_le (show 0 ≤ q - q' - t by omega)
    obtain rfl : t = q - q' - j := by omega
    rw [hj, Int.toNat_natCast, cast_mul_two_pow, zpow_sub₀ (by norm_num), mul_div_assoc', hvalue]
    push_cast
    field_simp
  obtain ⟨k, hk, rfl⟩ := eq_mul_two_pow hquotient (by omega)
  refine ⟨k, ?_⟩
  have hdvd : m * 2 ^ (q - q' - (p - k)).toNat = M * 2 ^ k * m' := by rw [hk]; ring
  simp only [divCore, ht, Nat.shiftLeft_eq, hdvd, Nat.mul_div_cancel _ hm', Nat.mul_mod_left,
    accuracyOfFraction, if_true]

/-- **Division is exact** if it can be.

**Proof sketch.** Zero divided is zero. Otherwise the signs are divided and the significands have a
quotient without remainder, `M` followed by `k` zeros (`divCore_of_value`). This is rounded to `M`,
as it is not coarser than the spacing. -/
theorem Carries.div (hu : Carries u x) (hu' : Carries u' y) (hy : y ≠ 0) (h : Carries w (x / y)) :
    Carries (UnpackedFloat.div Format.binary64 u u') (x / y) := by
  cases hu' with
  | zero t => exact absurd rfl hy
  | @finite t m' q' hm' canonical' =>
    cases hu with
    | zero s =>
      rw [zero_div]
      exact .zero (s / t)
    | @finite s m q hm canonical =>
      have hquotient : unit s * (m * 2 ^ q) / (unit t * (m' * 2 ^ q')) =
          unit (s / t) * (m * 2 ^ q / (m' * 2 ^ q')) := by
        rw [unit_div, mul_div_mul_comm]
      rw [hquotient] at h ⊢
      obtain ⟨M, p, hM, hcanonical, hvalue, rfl⟩ := h.exists_finite (by positivity)
      have hproduct : (m * 2 ^ q : ℚ) = M * 2 ^ p * (m' * 2 ^ q') :=
        (div_eq_iff (by positivity)).mp hvalue
      obtain ⟨k, hk⟩ := divCore_of_value hm hm' hM hcanonical hproduct
      simp only [UnpackedFloat.div, hk]
      rw [roundWithAccuracy_of_value hM hcanonical (by positivity) (cast_mul_two_pow M k p) _
        (by omega), hvalue]
      exact .finite (s / t) hM hcanonical

/-! ## Operations on doubles -/

section Operations

variable {a b c : Float} {x y : ℚ}

/-- The negative of a double has the negative value. -/
lemma HasValue.neg (ha : HasValue a x) : HasValue (-a) (-x) :=
  (hasValue_iff.mp ha).neg.hasValue_pack

/-- **Addition is exact** if a double has the exact sum. -/
theorem HasValue.add (ha : HasValue a x) (hb : HasValue b y) (hc : HasValue c (x + y)) :
    HasValue (a + b) (x + y) :=
  ((hasValue_iff.mp ha).add (hasValue_iff.mp hb) (hasValue_iff.mp hc)).hasValue_pack

/-- **Subtraction is exact** if a double has the exact difference.

**Proof sketch.** Subtracting is adding the negative, on the doubles taken apart
(`unpacked_sub_eq`), and the negative has the negative value. -/
theorem HasValue.sub (ha : HasValue a x) (hb : HasValue b y) (hc : HasValue c (x - y)) :
    HasValue (a - b) (x - y) := by
  rw [hasValue_iff, sub_eq_add_neg] at hc
  have hsum := (hasValue_iff.mp ha).add (hasValue_iff.mp hb).neg hc
  rw [← unpacked_sub_eq, ← sub_eq_add_neg] at hsum
  exact hsum.hasValue_pack

/-- **Multiplication is exact** if a double has the exact product. -/
theorem HasValue.mul (ha : HasValue a x) (hb : HasValue b y) (hc : HasValue c (x * y)) :
    HasValue (a * b) (x * y) :=
  ((hasValue_iff.mp ha).mul (hasValue_iff.mp hb) (hasValue_iff.mp hc)).hasValue_pack

/-- **Division is exact** if a double has the exact quotient, and there is one. -/
theorem HasValue.div (ha : HasValue a x) (hb : HasValue b y) (hy : y ≠ 0)
    (hc : HasValue c (x / y)) : HasValue (a / b) (x / y) :=
  ((hasValue_iff.mp ha).div (hasValue_iff.mp hb) hy (hasValue_iff.mp hc)).hasValue_pack

end Operations

/-! ## Whole numbers -/

/-- A positive whole number up to `2 ^ 53` has a significand and an exponent.

**Proof sketch.** `2 ^ 53` is one half of itself with the exponent `1`. A smaller number is shifted
up until it has 53 bits, and the exponent makes up for the shift. -/
lemma exists_isCanonical {n : ℕ} (hpos : 0 < n) (hn : n ≤ 2 ^ 53) :
    ∃ (m : ℕ) (q : ℤ), 0 < m ∧ IsCanonical m q ∧ (n : ℚ) = m * 2 ^ q := by
  rcases hn.eq_or_lt with rfl | hlt
  · exact ⟨2 ^ 52, 1, by decide, ⟨by decide, by decide, by decide, .inr le_rfl⟩, by norm_num⟩
  have hlog : n.log2 ≤ 52 := Nat.lt_succ_iff.mp ((Nat.log2_lt hpos.ne').mpr hlt)
  obtain ⟨k, hk⟩ : ∃ k, n.log2 + k = 52 := ⟨52 - n.log2, by omega⟩
  have hlow : 2 ^ 52 ≤ n * 2 ^ k := by
    rw [← hk, pow_add]
    exact Nat.mul_le_mul_right _ (Nat.log2_self_le hpos.ne')
  have hhigh : n * 2 ^ k < 2 ^ 53 := by
    have hsucc : 53 = n.log2 + 1 + k := by omega
    rw [hsucc, pow_add]
    exact Nat.mul_lt_mul_of_pos_right Nat.lt_log2_self (by positivity)
  refine ⟨n * 2 ^ k, 0 - k, by positivity, ⟨hhigh, by omega, by omega, .inr hlow⟩, ?_⟩
  rw [cast_mul_two_pow, zpow_zero, mul_one]

/-- **Whole numbers up to `2 ^ 53` are values of doubles.**

**Proof sketch.** A positive number has a significand and an exponent (`exists_isCanonical`), zero
is a zero, and a negative number is the negative of a positive one. -/
theorem exists_hasValue_int {n : ℤ} (hn : |n| ≤ 2 ^ 53) : ∃ v, HasValue v n := by
  have hnat : ∀ n : ℕ, n ≤ 2 ^ 53 → ∃ v, HasValue v n := by
    intro n hn
    rcases Nat.eq_zero_or_pos n with rfl | hpos
    · rw [Nat.cast_zero]
      exact ⟨_, (Carries.zero .positive).hasValue_pack⟩
    · obtain ⟨m, q, hm, canonical, hvalue⟩ := exists_isCanonical hpos hn
      have hcarries := Carries.finite .positive hm canonical
      rw [unit, one_mul, ← hvalue] at hcarries
      exact ⟨_, hcarries.hasValue_pack⟩
  obtain ⟨m, rfl | rfl⟩ := Int.eq_nat_or_neg n
  · rw [Nat.abs_cast] at hn
    exact hnat m (by omega)
  · rw [abs_neg, Nat.abs_cast] at hn
    obtain ⟨v, hv⟩ := hnat m (by omega)
    rw [Int.cast_neg]
    exact ⟨-v, hv.neg⟩

end PocketCalculator.Binary64
