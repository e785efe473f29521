import Mathlib
import PocketCalculator.Binary64.Nearest

/-!
# Doubles and their bits

A sign and a magnitude make a double, and no double is made otherwise: there is one NaN, and every
other double has a magnitude up to that of infinity. The logical model of doubles takes one apart
into its sign, significand and exponent; on the bits that a sign and a magnitude make these are the
sign and the unpacked magnitude. So the operations that look at the sign alone do to the sign what
they should, and comparing two non-negative doubles is comparing their magnitudes.

## Main definitions

* `Binary64.bits` — the bits that a sign and a magnitude make.
* `Binary64.unpacked` — a double of a sign and a magnitude, taken apart.

## Main results

* `Binary64.ofMagnitude_magnitude` — a double is put together again from its parts.
* `Binary64.unpack_ofMagnitude` — a double that was put together is taken apart again.
* `Binary64.neg_ofMagnitude`, `Binary64.abs_ofMagnitude` — the operations on the sign.
* `Binary64.le_ofMagnitude_iff`, `Binary64.lt_ofMagnitude_iff` — the order of non-negative doubles.
* `Binary64.eq_nan_of_isNaN` — there is one NaN.
-/

namespace PocketCalculator.Binary64

open Float.Model

/-! ## Putting together -/

/-- A double is put together again from its bits.

**Proof sketch.** A double is a word with a proof that it is a valid one, and a valid word is what
its parts are packed into. -/
lemma ofBits_toBits (v : Float) : Float.ofBits v.toBits = v := by
  obtain ⟨⟨bits, hvalid⟩⟩ := v
  have hpack := UnpackedFloat.pack_unpack_of_valid hvalid
  simp only [Float.ofBits, Float.toBits, Float.Model.ofBits, Float.Model.pack, hpack]

/-- **A double is put together again** from its sign and its magnitude.

**Proof sketch.** Sign and magnitude add up to the bits (`toNat_toBits`), and a double is made again
from its bits. -/
theorem ofMagnitude_magnitude (v : Float) : ofMagnitude (negative v) (magnitude v) = v := by
  rw [ofMagnitude, ← toNat_toBits, UInt64.ofNat_toNat, ofBits_toBits]

/-- The bits that a sign and a magnitude make. -/
def bits (negative : Bool) (b : ℕ) : UInt64 :=
  UInt64.ofNat ((if negative then 2 ^ 63 else 0) + b)

/-- The sign that a sign bit stands for. -/
def sign (negative : Bool) : UnpackedFloat.Sign :=
  if negative then .negative else .positive

/-- A double of a sign and a magnitude, taken apart. -/
def unpacked (s : UnpackedFloat.Sign) (b : ℕ) : UnpackedFloat :=
  if b = infinity then .infinity s
  else if h : 0 < (unpack b).1 then .finite s (unpack b).1 (unpack b).2 h
  else .zero s

/-! ## Fields -/

section Fields

variable (s : Bool) {b : ℕ} (hb : b ≤ infinity)

include hb

/-- The bits of a double that is not NaN, as a number. -/
lemma toNat_bits : (bits s b).toNat = (if s then 2 ^ 63 else 0) + b := by
  have hlt : infinity < 2 ^ 63 := by decide
  rw [bits, UInt64.toNat_ofNat']
  apply Nat.mod_eq_of_lt
  split <;> omega

/-- The low bits hold the stored part of the significand.

**Proof sketch.** The field is the remainder modulo `2 ^ 52`, and the sign bit, a multiple of `2 ^
52`, does not show in it. -/
lemma toNat_unpackMantissa :
    (@UnpackedFloat.unpackMantissa Format.binary64 (bits s b).toBitVec).toNat =
      b % 2 ^ 52 := by
  rw [UnpackedFloat.unpackMantissa_def, BitVec.extractLsb'_toNat, UInt64.toNat_toBitVec,
    toNat_bits s hb, Nat.shiftRight_zero]
  change _ % 2 ^ 52 = b % 2 ^ 52
  split <;> omega

/-- The bits above them hold the binade.

**Proof sketch.** The field is the quotient by `2 ^ 52` without the bits from `2 ^ 11` on. The
magnitude has no such bit, as it does not exceed that of infinity, and the sign is one. -/
lemma toNat_unpackExponent :
    (@UnpackedFloat.unpackExponent Format.binary64 (bits s b).toBitVec).toNat =
      b / 2 ^ 52 := by
  have hmax : b ≤ 2047 * 2 ^ 52 := hb
  rw [UnpackedFloat.unpackExponent_def, BitVec.extractLsb'_toNat, UInt64.toNat_toBitVec,
    toNat_bits s hb, Nat.shiftRight_eq_div_pow]
  change _ / 2 ^ 52 % 2 ^ 11 = b / 2 ^ 52
  split <;> omega

/-- The highest bit holds the sign.

**Proof sketch.** The field is the quotient by `2 ^ 63`, and the magnitude lies below `2 ^ 63`. -/
lemma unpackSign_bits :
    @UnpackedFloat.unpackSign Format.binary64 (bits s b).toBitVec =
      (sign s).toBitVec := by
  have hmax : b ≤ 2047 * 2 ^ 52 := hb
  refine BitVec.eq_of_toNat_eq ?_
  rw [UnpackedFloat.unpackSign_def, BitVec.extractLsb'_toNat, UInt64.toNat_toBitVec,
    toNat_bits s hb, Nat.shiftRight_eq_div_pow]
  cases s
  · change (0 + b) / 2 ^ 63 % 2 ^ 1 = 0
    omega
  · change (2 ^ 63 + b) / 2 ^ 63 % 2 ^ 1 = 1
    omega

/-- **The bits of a double** that is not NaN are taken apart into what its sign and its magnitude
say.

**Proof sketch.** The model looks at the exponent field, as `unpack` does at the quotient by `2 ^
52`. If all its bits are set, the magnitude is that of infinity, since a greater one is excluded. If
none is, the mantissa field is the significand, and zero is told by it. In any other case the model
puts a bit in front of the field, which is the same as adding `2 ^ 52`. -/
theorem unpack_bits :
    UnpackedFloat.unpack Format.binary64 (bits s b).toBitVec = unpacked (sign s) b := by
  have hmantissa := toNat_unpackMantissa s hb
  have hexponent := toNat_unpackExponent s hb
  have hmax : b ≤ 2047 * 2 ^ 52 := hb
  have hones : (-1#11).toNat = 2047 := rfl
  unfold UnpackedFloat.unpack
  simp only [unpackSign_bits s hb, UnpackedFloat.Sign.ofBitVec_toBitVec, ← BitVec.toNat_inj,
    hexponent, hmantissa, hones, BitVec.toNat_ofNat, Nat.zero_mod]
  unfold unpacked unpack infinity
  by_cases hinf : b / 2 ^ 52 = 2047
  · rw [if_pos hinf, if_pos (by omega), if_pos (by omega)]
  rw [if_neg hinf, if_neg (show b ≠ 2047 * 2 ^ 52 by omega)]
  by_cases hsub : b / 2 ^ 52 = 0
  · simp only [if_pos hsub]
    by_cases hzero : b % 2 ^ 52 = 0
    · rw [dif_pos hzero, dif_neg (by omega)]
    · rw [dif_neg hzero, dif_pos (by omega), UnpackedFloat.finite.injEq]
      refine ⟨rfl, by omega, ?_⟩
      rw [hsub]
      rfl
  · simp only [if_neg hsub]
    rw [dif_pos (by omega), UnpackedFloat.finite.injEq]
    refine ⟨rfl, ?_, rfl⟩
    rw [← hmantissa, BitVec.toNat_append]
    change 2 ^ 52 * 1 ||| _ = 2 ^ 52 * 1 + _
    rw [← Nat.two_pow_add_eq_or_of_lt (BitVec.isLt _)]

/-- The bits of a double that is not NaN are kept.

**Proof sketch.** A word is packed from its parts unless its bits are those of NaN. These are a full
exponent field over a mantissa field that is not zero, which would make the magnitude exceed that of
infinity. -/
lemma pack_unpacked :
    UnpackedFloat.pack Format.binary64 (unpacked (sign s) b) = (bits s b).toBitVec := by
  have hnum : @UnpackedFloat.isNaNBits Format.binary64 (bits s b).toBitVec = false := by
    have hmantissa := toNat_unpackMantissa s hb
    have hexponent := toNat_unpackExponent s hb
    have hmax : b ≤ 2047 * 2 ^ 52 := hb
    rw [UnpackedFloat.isNaNBits, decide_eq_false_iff_not, ← BitVec.toNat_inj, ne_eq,
      ← BitVec.toNat_inj, hexponent, hmantissa]
    rintro ⟨hinf, hne⟩
    have hinf : b / 2 ^ 52 = 2047 := hinf
    have hne : ¬ b % 2 ^ 52 = 0 := hne
    omega
  rw [← unpack_bits s hb, UnpackedFloat.pack_unpack, hnum, if_neg Bool.false_ne_true]

end Fields

/-! ## Taking apart -/

variable {s : Bool} {b : ℕ}

/-- What is packed from the parts of a sign and a magnitude is their double. -/
lemma ofMagnitude_eq_pack (hb : b ≤ infinity) :
    ofMagnitude s b = ⟨Float.Model.pack (unpacked (sign s) b)⟩ := by
  rw [← unpack_bits s hb]
  rfl

/-- The bits of a double that was put together from a sign and a magnitude. -/
lemma toBits_ofMagnitude (hb : b ≤ infinity) : (ofMagnitude s b).toBits = bits s b := by
  rw [ofMagnitude_eq_pack hb]
  exact congrArg UInt64.ofBitVec (pack_unpacked s hb)

/-- **A double that was put together is taken apart again.**

**Proof sketch.** The double has the bits of its sign and magnitude (`toBits_ofMagnitude`), and
these are taken apart by `unpack_bits`. -/
theorem unpack_ofMagnitude (hb : b ≤ infinity) :
    (ofMagnitude s b).toModel.unpack = unpacked (sign s) b := by
  have hbits : (ofMagnitude s b).toModel.toBits = bits s b := toBits_ofMagnitude hb
  rw [Float.Model.unpack, hbits, unpack_bits s hb]

/-- The magnitude of a double that was put together. -/
lemma magnitude_ofMagnitude (hb : b ≤ infinity) : magnitude (ofMagnitude s b) = b := by
  have hlt : infinity < 2 ^ 63 := by decide
  rw [magnitude, toBits_ofMagnitude hb, toNat_bits s hb]
  split <;> omega

/-- The sign of a double that was put together. -/
lemma negative_ofMagnitude (hb : b ≤ infinity) : negative (ofMagnitude s b) = s := by
  have hlt : infinity < 2 ^ 63 := by decide
  rw [negative, toBits_ofMagnitude hb, toNat_bits s hb]
  cases s
  · simp
    omega
  · simp

/-! ## Signs -/

/-- The negative of a double has the other sign and the same magnitude.

**Proof sketch.** The model turns the sign of the double taken apart and keeps the rest, whether it
is infinite, finite or zero. Putting together goes back from there (`ofMagnitude_eq_pack`). -/
theorem neg_ofMagnitude (hb : b ≤ infinity) : -ofMagnitude s b = ofMagnitude (!s) b := by
  have hneg : (unpacked (sign s) b).neg = unpacked (sign !s) b := by
    unfold unpacked
    split
    · cases s <;> rfl
    · split <;> cases s <;> rfl
  rw [ofMagnitude_eq_pack (s := !s) hb, ← hneg, ← unpack_ofMagnitude hb]
  rfl

/-- The absolute value of a double has the same magnitude and no sign.

**Proof sketch.** As for the negative: the model drops the sign of the double taken apart and keeps
the rest. -/
theorem abs_ofMagnitude (hb : b ≤ infinity) : (ofMagnitude s b).abs = ofMagnitude false b := by
  have habs : (unpacked (sign s) b).abs = unpacked (sign false) b := by
    unfold unpacked
    split
    · rfl
    · split <;> rfl
  rw [ofMagnitude_eq_pack (s := false) hb, ← habs, ← unpack_ofMagnitude hb]
  rfl

/-! ## Order -/

/-- Magnitudes grow with their exponents, and in one binade with their significands.

**Proof sketch.** In the lowest binade the exponent is fixed and the significand is the magnitude.
Above it the exponent is the quotient by `2 ^ 52` and the significand the remainder, up to
constants. -/
lemma unpack_lt {a b : ℕ} (h : a < b) :
    (unpack a).2 < (unpack b).2 ∨ (unpack a).2 = (unpack b).2 ∧ (unpack a).1 < (unpack b).1 := by
  unfold unpack
  by_cases hb : b / 2 ^ 52 = 0
  · rw [if_pos hb, if_pos (by omega)]
    exact .inr ⟨rfl, h⟩
  · rw [if_neg hb]
    split <;> simp only <;> omega

/-- Comparing exponents first and then significands is comparing magnitudes.

**Proof sketch.** The smaller of two magnitudes has the smaller exponent, or the same one and the
smaller significand (`unpack_lt`), so each of the three outcomes decides the comparison of the
parts. -/
lemma compare_unpack (a b : ℕ) :
    (compare (unpack a).2 (unpack b).2).then (compare (unpack a).1 (unpack b).1) =
      compare a b := by
  rcases lt_trichotomy a b with h | rfl | h
  · rw [compare_lt_iff_lt.mpr h]
    rcases unpack_lt h with hexp | ⟨hexp, hsig⟩
    · rw [compare_lt_iff_lt.mpr hexp]
      rfl
    · rw [compare_eq_iff_eq.mpr hexp, compare_lt_iff_lt.mpr hsig]
      rfl
  · rw [compare_eq_iff_eq.mpr rfl, compare_eq_iff_eq.mpr rfl, compare_eq_iff_eq.mpr rfl]
    rfl
  · rw [compare_gt_iff_gt.mpr h]
    rcases unpack_lt h with hexp | ⟨hexp, hsig⟩
    · rw [compare_gt_iff_gt.mpr hexp]
      rfl
    · rw [compare_eq_iff_eq.mpr hexp.symm, compare_gt_iff_gt.mpr hsig]
      rfl

/-- Only zero has no significand. -/
lemma unpack_fst_pos {b : ℕ} : 0 < (unpack b).1 ↔ 0 < b := by
  unfold unpack
  split
  · exact Iff.rfl
  · simp only
    omega

/-- Comparing the parts of two non-negative doubles is comparing their magnitudes.

**Proof sketch.** The model compares by cases: infinity is above all, zero below all, and two finite
doubles are compared by their exponents first, which is `compare_unpack`. In each case the
magnitudes are in the same order. -/
lemma compare_unpacked {a b : ℕ} (ha : a ≤ infinity) (hb : b ≤ infinity) :
    (unpacked .positive a).compare (unpacked .positive b) = some (compare a b) := by
  have hpos : 0 < infinity := by decide
  have hgt : b < a → compare a b = .gt := compare_gt_iff_gt.mpr
  have hlt : a < b → compare a b = .lt := compare_lt_iff_lt.mpr
  unfold unpacked
  simp only [unpack_fst_pos]
  split_ifs with hainf hbinf hb0 ha0 hbinf hb0 hbinf hb0
  · rw [hainf, hbinf, compare_eq_iff_eq.mpr rfl]
    rfl
  · rw [hgt (by omega)]
    rfl
  · rw [hgt (by omega)]
    rfl
  · rw [hlt (by omega)]
    rfl
  · exact congrArg some (compare_unpack a b)
  · rw [hgt (by omega)]
    rfl
  · rw [hlt (by omega)]
    rfl
  · rw [hlt (by omega)]
    rfl
  · rw [compare_eq_iff_eq.mpr (show a = b by omega)]
    rfl

/-- **The order of non-negative doubles** is that of their magnitudes.

**Proof sketch.** The order of the model is that of the doubles taken apart. These are what the
magnitudes are unpacked to (`unpack_ofMagnitude`), and comparing them is comparing the magnitudes
(`compare_unpacked`). -/
theorem le_ofMagnitude_iff {a b : ℕ} (ha : a ≤ infinity) (hb : b ≤ infinity) :
    ofMagnitude false a ≤ ofMagnitude false b ↔ a ≤ b := by
  change decide ((ofMagnitude false a).toModel ≤ (ofMagnitude false b).toModel) = true ↔ _
  rw [decide_eq_true_iff]
  change ((ofMagnitude false a).toModel.unpack.le (ofMagnitude false b).toModel.unpack) = true ↔ _
  rw [unpack_ofMagnitude ha, unpack_ofMagnitude hb, UnpackedFloat.le]
  change Option.any _ ((unpacked .positive a).compare (unpacked .positive b)) = true ↔ _
  rw [compare_unpacked ha hb, Option.any_some, ← Nat.isLE_compare]

@[inherit_doc le_ofMagnitude_iff]
theorem lt_ofMagnitude_iff {a b : ℕ} (ha : a ≤ infinity) (hb : b ≤ infinity) :
    ofMagnitude false a < ofMagnitude false b ↔ a < b := by
  change decide ((ofMagnitude false a).toModel < (ofMagnitude false b).toModel) = true ↔ _
  rw [decide_eq_true_iff]
  change ((ofMagnitude false a).toModel.unpack.lt (ofMagnitude false b).toModel.unpack) = true ↔ _
  rw [unpack_ofMagnitude ha, unpack_ofMagnitude hb, UnpackedFloat.lt]
  change (((unpacked .positive a).compare (unpacked .positive b)) == _) = true ↔ _
  rw [compare_unpacked ha hb, beq_iff_eq, Option.some.injEq, compare_lt_iff_lt]

/-! ## NaN -/

/-- The magnitudes of all but NaN go up to that of infinity. -/
lemma isNaN_eq_false_iff {v : Float} : isNaN v = false ↔ magnitude v ≤ infinity := by
  rw [isNaN, decide_eq_false_iff_not, not_lt]

/-- **There is one NaN.**

**Proof sketch.** A magnitude above that of infinity has a full exponent field and a mantissa field
that is not zero. The words of the model are valid, and the only valid one with these fields is that
of the canonical NaN. -/
theorem eq_nan_of_isNaN {v : Float} (h : isNaN v = true) : v = nan := by
  rw [isNaN, decide_eq_true_eq] at h
  obtain ⟨⟨word, hvalid⟩⟩ := v
  have hmag : 2047 * 2 ^ 52 < word.toBitVec.toNat % 2 ^ 63 := h
  have hword : word.toBitVec = UnpackedFloat.packedNaN Format.binary64 := by
    refine hvalid.eq_packedNaN ?_ fun hzero => ?_
    · refine BitVec.eq_of_toNat_eq ?_
      rw [UnpackedFloat.unpackExponent_def, BitVec.extractLsb'_toNat, Nat.shiftRight_eq_div_pow]
      change _ / 2 ^ 52 % 2 ^ 11 = 2047
      omega
    · rw [← BitVec.toNat_inj, UnpackedFloat.unpackMantissa_def, BitVec.extractLsb'_toNat,
        Nat.shiftRight_zero] at hzero
      change _ % 2 ^ 52 = 0 at hzero
      omega
  have hbits : (⟨⟨word, hvalid⟩⟩ : Float).toBits = nan.toBits := by
    change word = _
    rw [← UInt64.toBitVec_inj, hword]
    decide
  rw [← ofBits_toBits ⟨⟨word, hvalid⟩⟩, hbits, ofBits_toBits]

end PocketCalculator.Binary64
