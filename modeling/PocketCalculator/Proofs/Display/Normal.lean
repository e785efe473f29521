import Mathlib.Tactic.Common
import PocketCalculator.Proofs.Decimal.Order
import PocketCalculator.Proofs.Display.Operand

/-!
# Results in normal form

The text of a result says all there is to say and nothing twice. Before the point there is a zero,
or there are digits that begin with another one; after the point there are digits that end with
another one than zero, unless there is only a zero. Which of the two ways of writing is taken
depends on the double, but it agrees with the digits that are written: with at most seven digits
before the point there is no power of ten, and a power of ten is one that calls for it.

## Main definitions

* `Display.IsFraction`, `Display.IsLeading` — digits after a point, and digits at the beginning.
* `Display.IsPlainText`, `Display.IsScientificText` — the two ways of writing, in normal form.

## Main results

* `Display.point_shortest_le`, `Display.point_shortest_scientific` — the place of the point in the
  two ways of writing.
* `Display.isPlainText_magnitudeText`, `Display.isScientificText_magnitudeText` — the normal form of
  a magnitude.
* `normal_display` — the normal form of every result.
-/

namespace PocketCalculator

variable {v : Float}

namespace Display

/-! ## Normal forms -/

/-- Digits as they stand after the point of a result: one at least, and no zero at their end unless
there is nothing else. -/
structure IsFraction (f : List Char) : Prop where
  /-- There is a digit. -/
  ne_nil : f ≠ []
  /-- There are only digits. -/
  digits : ∀ c ∈ f, c.isDigit = true
  /-- A zero at the end is the only digit. -/
  last : f = ['0'] ∨ f.getLast? ≠ some '0'

/-- Digits as they stand at the beginning of a number that is not zero: one at least, and no zero
first. -/
structure IsLeading (w : List Char) : Prop where
  /-- There is a digit. -/
  ne_nil : w ≠ []
  /-- There are only digits. -/
  digits : ∀ c ∈ w, c.isDigit = true
  /-- The first digit is no zero. -/
  head : w.head? ≠ some '0'

/-- A number without a power of ten, with at most seven digits before its point. -/
def IsPlainText (text : List Char) : Prop :=
  ∃ w f : List Char, text = w ++ '.' :: f ∧ (w = ['0'] ∨ (IsLeading w ∧ w.length ≤ 7)) ∧
    IsFraction f

/-- A number with one digit before its point and the power of ten `e` behind an `E`. -/
def IsScientificText (e : ℤ) (text : List Char) : Prop :=
  ∃ (d : Char) (f es : List Char), text = d :: '.' :: (f ++ 'E' :: (sign (e < 0) ++ es)) ∧
    d.isDigit = true ∧ d ≠ '0' ∧ IsFraction f ∧ IsLeading es ∧
    Nat.ofDigitChars 10 es 0 = e.natAbs

/-! ## Digits -/

/-- Digits that do not end with a zero stand after a point as they are; for none of them there is a
zero. -/
lemma isFraction_orZero {ds : List Char} (hd : ∀ c ∈ orZero ds, c.isDigit = true)
    (hlast : ds.getLast? ≠ some '0') : IsFraction (orZero ds) where
  ne_nil := orZero_ne_nil ds
  digits := hd
  last := by
    cases ds with
    | nil => exact .inl rfl
    | cons c ds => exact .inr hlast

/-- The last of some digits is the last of all. -/
lemma getLast_drop {ds : List Char} (hlast : ds.getLast? ≠ some '0') (n : ℕ) :
    (ds.drop n).getLast? ≠ some '0' := by
  rw [List.getLast?_drop]
  split
  · exact (Option.some_ne_none '0').symm
  · exact hlast

/-- An integer other than zero is written with its sign, if it is negative, and without zeros at its
beginning.

**Proof sketch.** The text is the digits of the absolute value behind the sign, and the digits of a
number that is not zero do not begin with a zero. -/
lemma exists_integer {e : ℤ} (he : e ≠ 0) :
    ∃ es, integer e = sign (e < 0) ++ es ∧ IsLeading es ∧ Nat.ofDigitChars 10 es 0 = e.natAbs := by
  refine ⟨Nat.toDigits 10 e.natAbs, ?_, ⟨Nat.toDigits_ne_nil, fun c hc => ?_, ?_⟩,
    Nat.ofDigitChars_ten_toDigits⟩
  · unfold integer sign
    simp only [decide_eq_true_eq]
    split <;> rfl
  · exact Nat.isDigit_of_mem_toDigits (by decide) (by decide) hc
  · exact Decimal.head_toDigits (Int.natAbs_pos.mpr he)

/-! ## The two ways of writing -/

section Writing

variable {ds : List Char} (hne : ds ≠ []) (hd : ∀ c ∈ ds, c.isDigit = true)
  (hhead : ds.head? ≠ some '0') (hlast : ds.getLast? ≠ some '0')

include hne hd hhead hlast

/-- Digits whose point is not behind the seventh are written plainly in normal form.

**Proof sketch.** If the point is behind some of the digits, the side before it begins with the
first of them and is as long as the point says; otherwise it is a zero. The side after the point
ends with the last digit, unless the point is behind all of them, where a zero stands for
nothing. -/
lemma isPlainText_plain {point : ℤ} (hpoint : point ≤ 7) : IsPlainText (plain ds point) := by
  have hwhole := isDigit_of_mem_whole hd point
  have hfraction := isDigit_of_mem_fraction hd point
  refine ⟨_, _, rfl, ?_, isFraction_orZero hfraction ?_⟩
  · rcases lt_or_ge 0 point with hpos | hneg
    · obtain ⟨c, cs, rfl⟩ := List.exists_cons_of_ne_nil hne
      obtain ⟨n, hn⟩ : ∃ n, point.toNat = n + 1 := ⟨point.toNat - 1, by omega⟩
      have hcons : ((c :: cs).take (n + 1)).rightpad (n + 1) '0' =
          c :: (cs.take n).rightpad n '0' := by
        simp [List.rightpad]
      rw [hn, hcons] at hwhole ⊢
      refine .inr ⟨⟨orZero_ne_nil _, hwhole, hhead⟩, ?_⟩
      have hlength : ((cs.take n).rightpad n '0').length = n := by
        rw [List.length_rightpad, List.length_take]
        omega
      rw [orZero, List.isEmpty_cons, if_neg Bool.false_ne_true, List.length_cons, hlength]
      omega
    · rw [show point.toNat = 0 by omega]
      exact .inl rfl
  · rcases lt_or_ge 0 point with hpos | hneg
    · rw [show (-point).toNat = 0 by omega]
      exact getLast_drop hlast _
    · rw [show point.toNat = 0 by omega, List.drop_zero, List.getLast?_append_of_ne_nil _ hne]
      exact hlast

/-- Digits with a power of ten are in normal form.

**Proof sketch.** By `scientific_eq` the first digit stands before the point, and it is no zero. The
others end with the last digit, or are none, and the exponent is written without zeros at its
beginning, as it is not zero (`exists_integer`). -/
lemma isScientificText_scientific {point : ℤ} (hpoint : point ≠ 1) :
    IsScientificText (point - 1) (scientific ds point) := by
  obtain ⟨c, cs, rfl⟩ := List.exists_cons_of_ne_nil hne
  obtain ⟨es, hes, hleading, hvalue⟩ := exists_integer (e := point - 1) (by omega)
  refine ⟨c, orZero cs, es, ?_, hd c List.mem_cons_self, ?_, isFraction_orZero ?_ ?_, hleading,
    hvalue⟩
  · rw [scientific_eq hd, ← hes]
    rfl
  · rintro rfl
    exact hhead rfl
  · exact isDigit_of_mem_orZero fun x hx => hd x (List.mem_cons_of_mem c hx)
  · exact getLast_drop hlast 1

end Writing

/-! ## Magnitudes -/

section Magnitudes

variable {b : ℕ} (hpos : 0 < b) (hb : b < Binary64.infinity)

include hpos hb

/-- The shortest decimal of a double that is not zero is as large as the place of its point says.

**Proof sketch.** The bounds are those of any decimal that is not zero, and the shortest decimal is
not zero, because it reads back as a magnitude that is not. -/
lemma value_shortest_bounds :
    (10 : ℚ) ^ ((Decimal.shortest b).point - 1) ≤ (Decimal.shortest b).value ∧
      (Decimal.shortest b).value < 10 ^ (Decimal.shortest b).point := by
  refine Decimal.value_bounds (Nat.pos_of_ne_zero fun hzero => ?_)
  have hback := Decimal.magnitude_shortest hb
  rw [Decimal.magnitude, hzero, Nat.zero_mul, Binary64.nearest_zero] at hback
  exact hpos.ne hback

/-- Below ten million there are at most seven digits before the point.

**Proof sketch.** A decimal with the smaller nearest double is the smaller one. So the shortest
decimal lies below ten million, and with more than seven digits before its point it would not. -/
lemma point_shortest_le (h : b < plainBelow) : (Decimal.shortest b).point ≤ 7 := by
  have hmag : (Decimal.shortest b).magnitude < (⟨1, 7⟩ : Decimal).magnitude := by
    rw [Decimal.magnitude_shortest hb]
    exact h
  have hvalue := (value_shortest_bounds hpos hb).1.trans_lt (Decimal.lt_of_magnitude_lt hmag)
  rw [Decimal.value_one, zpow_lt_zpow_iff_right₀ (by norm_num)] at hvalue
  omega

/-- Where a power of ten is written, it is one that calls for it.

**Proof sketch.** Below 0.001 the shortest decimal is below 0.001, too, and from ten million on it
is not below ten million: for ten million itself it is exact, and above it is above. -/
lemma point_shortest_scientific (h : ¬ (plainFrom ≤ b ∧ b < plainBelow)) :
    (Decimal.shortest b).point - 1 ≤ -4 ∨ 7 ≤ (Decimal.shortest b).point - 1 := by
  have hback := Decimal.magnitude_shortest hb
  obtain ⟨hlo, hhi⟩ := value_shortest_bounds hpos hb
  rcases lt_or_ge b plainFrom with hsmall | hlarge
  · have hmag : (Decimal.shortest b).magnitude < (⟨1, -3⟩ : Decimal).magnitude := by
      rw [hback]
      exact hsmall
    have hvalue := hlo.trans_lt (Decimal.lt_of_magnitude_lt hmag)
    rw [Decimal.value_one, zpow_lt_zpow_iff_right₀ (by norm_num)] at hvalue
    omega
  · rcases eq_or_lt_of_le (not_lt.mp fun hlt => h ⟨hlarge, hlt⟩) with rfl | habove
    · exact .inr (by decide +kernel)
    · have hmag : (⟨1, 7⟩ : Decimal).magnitude < (Decimal.shortest b).magnitude := by
        rw [hback]
        exact habove
      have hvalue := (Decimal.lt_of_magnitude_lt hmag).trans hhi
      rw [Decimal.value_one, zpow_lt_zpow_iff_right₀ (by norm_num)] at hvalue
      omega

end Magnitudes

variable {b : ℕ}

/-- **A plain magnitude** is written in normal form.

**Proof sketch.** Zero is checked. Any other magnitude is written by the digits of its shortest
decimal, which neither begin nor end with a zero, and whose point is not behind the seventh
(`point_shortest_le`). -/
theorem isPlainText_magnitudeText (h : b = 0 ∨ (plainFrom ≤ b ∧ b < plainBelow)) :
    IsPlainText (magnitudeText b) := by
  rcases Nat.eq_zero_or_pos b with rfl | hpos
  · have hzero : magnitudeText 0 = ['0', '.', '0'] := by decide +kernel
    rw [hzero]
    exact ⟨['0'], ['0'], rfl, .inl rfl, List.cons_ne_nil _ _, List.forall_mem_singleton.mpr rfl,
      .inl rfl⟩
  · have hbelow : b < plainBelow := (h.resolve_left hpos.ne').2
    have hb := hbelow.trans plainBelow_lt_infinity
    have hne := Decimal.digits_shortest_ne_nil hpos hb
    rw [magnitudeText, if_neg hb.ne]
    simp only [if_pos h]
    exact isPlainText_plain hne (fun c hc => isDigit_of_mem_digits hc) (Decimal.head_digits hne)
      Decimal.getLast_digits (point_shortest_le hpos hb hbelow)

/-- **Any other finite magnitude** is written with its power of ten, in normal form.

**Proof sketch.** The digits of the shortest decimal neither begin nor end with a zero, so that the
text is in normal form (`isScientificText_scientific`). Reading it gives a decimal of the same value
(`ofText?_scientific`, `value_scientific`). The value therefore has the nearest double and the
bounds of the shortest decimal, and the bounds settle which exponents occur
(`point_shortest_scientific`). -/
theorem isScientificText_magnitudeText (hb : b < Binary64.infinity)
    (h : ¬ (b = 0 ∨ (plainFrom ≤ b ∧ b < plainBelow))) :
    ∃ (e : ℤ) (d : Decimal), IsScientificText e (magnitudeText b) ∧ (e ≤ -4 ∨ 7 ≤ e) ∧
      Decimal.ofText? (magnitudeText b) = some d ∧ d.magnitude = b ∧
      (10 : ℚ) ^ e ≤ d.value ∧ d.value < 10 ^ (e + 1) := by
  rw [not_or] at h
  have hpos : 0 < b := Nat.pos_of_ne_zero h.1
  have hne := Decimal.digits_shortest_ne_nil hpos hb
  have hd : ∀ c ∈ (Decimal.shortest b).digits, c.isDigit = true :=
    fun c hc => isDigit_of_mem_digits hc
  have hscale := point_shortest_scientific hpos hb h.2
  obtain ⟨hlo, hhi⟩ := Decimal.point_shortest hb
  have hread := ofText?_scientific hd
    (show ((Decimal.shortest b).point - 1).natAbs < 655360 by omega)
  have hvalue := (value_scientific hne (Decimal.shortest b).point).trans
    (Decimal.shortest b).value_eq_digitsValue.symm
  obtain ⟨habove, hbelow⟩ := value_shortest_bounds hpos hb
  rw [magnitudeText, if_neg hb.ne]
  simp only [if_neg (not_or.mpr h)]
  refine ⟨(Decimal.shortest b).point - 1, _, ?_, hscale, hread, ?_, ?_, ?_⟩
  · exact isScientificText_scientific hne hd (Decimal.head_digits hne) Decimal.getLast_digits
      (by omega)
  · rw [Decimal.magnitude_congr hvalue, Decimal.magnitude_shortest hb]
  · rw [hvalue]
    exact habove
  · rw [hvalue, sub_add_cancel]
    exact hbelow

/-- The sign of a result that is not NaN is the only minus sign that its text can begin with.

**Proof sketch.** The text of a magnitude begins with a digit or with the letter of a word
(`head_magnitudeText`), and neither is a minus sign. -/
lemma head_sign_append {negative : Bool} (hb : b ≤ Binary64.infinity) :
    (sign negative ++ magnitudeText b).head? = some '-' ↔ negative = true := by
  cases negative with
  | true => exact iff_of_true rfl rfl
  | false =>
    obtain ⟨c, cs, hcs, hc⟩ := head_magnitudeText hb
    refine iff_of_false ?_ Bool.false_ne_true
    rw [sign, if_neg Bool.false_ne_true, List.nil_append, hcs, List.head?_cons, Option.some.injEq]
    rintro rfl
    exact absurd hc (by decide)

end Display

open Display

/-! ## Results -/

/-- **The normal form of every result.** NaN and the infinite results are words. A result that is
shown plainly has a zero or up to seven digits before its point; any other finite one has a digit
before its point and the power of ten of the number that is written, at most the minus fourth or at
least the seventh. In both, the digits after the point do not end with a zero unless it is the only
one, and there is no second point. A minus sign is in front exactly if the result is negative, be it
zero, and nothing else changes with the sign.

**Proof sketch.** A result that is not NaN is its sign and the text of its magnitude
(`display_eq_sign_append`), so everything but the sign is said of magnitudes:
`isPlainText_magnitudeText` and `isScientificText_magnitudeText` give the two normal forms,
`count_point_display` the one point. No text of a magnitude begins with a minus sign itself
(`head_sign_append`), and the negative of a double has the same magnitude. -/
theorem normal_display (v : Float) :
    (Binary64.isNaN v = true → display v = "NaN".toList) ∧
    (Binary64.magnitude v = Binary64.infinity →
      display v = sign (Binary64.negative v) ++ "Infinity".toList) ∧
    (IsPlain v → ∃ text, display v = sign (Binary64.negative v) ++ text ∧ IsPlainText text) ∧
    (Binary64.magnitude v < Binary64.infinity → ¬ IsPlain v →
      ∃ (text : List Char) (e : ℤ) (d : Decimal), display v = sign (Binary64.negative v) ++ text ∧
        IsScientificText e text ∧ (e ≤ -4 ∨ 7 ≤ e) ∧
        Decimal.ofText? text = some d ∧ d.magnitude = Binary64.magnitude v ∧
        (10 : ℚ) ^ e ≤ d.value ∧ d.value < 10 ^ (e + 1)) ∧
    (Binary64.magnitude v < Binary64.infinity → (display v).count '.' = 1) ∧
    ((display v).head? = some '-' ↔ Binary64.negative v = true ∧ Binary64.isNaN v = false) ∧
    (Binary64.isNaN v = false → Binary64.negative v = false → display (-v) = '-' :: display v) := by
  refine ⟨fun hnan => ?_, fun hinf => ?_, fun hplain => ?_, fun hfin hplain => ?_, fun hfin => ?_,
    ?_, fun hnan hneg => ?_⟩
  · rw [display, if_pos hnan]
  · rw [display_eq_sign_append (Binary64.isNaN_eq_false_iff.mpr hinf.le), hinf, magnitudeText,
      if_pos rfl]
  · have hnan := Binary64.isNaN_eq_false_iff.mpr (magnitude_lt_of_isPlain hplain).le
    exact ⟨_, display_eq_sign_append hnan, isPlainText_magnitudeText (isPlain_iff.mp hplain)⟩
  · rw [isPlain_iff] at hplain
    obtain ⟨e, d, htext⟩ := isScientificText_magnitudeText hfin hplain
    exact ⟨_, e, d, display_eq_sign_append (Binary64.isNaN_eq_false_iff.mpr hfin.le), htext⟩
  · rw [count_point_display, if_pos hfin]
  · cases hnan : Binary64.isNaN v with
    | true =>
      refine iff_of_false ?_ fun h => Bool.noConfusion h.2
      rw [display, if_pos hnan]
      decide
    | false =>
      rw [display_eq_sign_append hnan, head_sign_append (Binary64.isNaN_eq_false_iff.mp hnan)]
      exact (and_iff_left rfl).symm
  · have hle := Binary64.isNaN_eq_false_iff.mp hnan
    have hback := Binary64.ofMagnitude_magnitude v
    rw [hneg] at hback
    have hopposite : -v = Binary64.ofMagnitude true (Binary64.magnitude v) := by
      conv_lhs => rw [← hback]
      exact Binary64.neg_ofMagnitude hle
    have hmag := Binary64.magnitude_ofMagnitude (s := true) hle
    rw [hopposite, display_eq_sign_append (Binary64.isNaN_eq_false_iff.mpr (hmag.le.trans hle)),
      hmag, Binary64.negative_ofMagnitude hle, display_eq_sign_append hnan, hneg]
    rfl

/-- The general result for NaN, for a negative infinite result, for the last double below ten
million and for ten million itself, for the last double below 0.001, and for both zeros. -/
theorem normal_display_thresholds :
    (Binary64.isNaN Binary64.nan = true ∧ display Binary64.nan = "NaN".toList) ∧
    (Binary64.magnitude (-1 / 0) = Binary64.infinity ∧ display (-1 / 0) = "-Infinity".toList) ∧
    (IsPlain 9999999.999999998 ∧ IsPlainText (display 9999999.999999998)) ∧
    (Binary64.magnitude 10000000 < Binary64.infinity ∧ ¬ IsPlain 10000000 ∧
      ∃ e, IsScientificText e (display 10000000) ∧ (e ≤ -4 ∨ 7 ≤ e)) ∧
    (Binary64.magnitude (-9.999999999999998e-4) < Binary64.infinity ∧
      (display (-9.999999999999998e-4)).count '.' = 1) ∧
    (Binary64.isNaN 0 = false ∧ Binary64.negative 0 = false ∧ display (-0) = '-' :: display 0) := by
  have hnan : Binary64.isNaN Binary64.nan = true := by decide +kernel
  have hinf : Binary64.magnitude (-1 / 0) = Binary64.infinity := by decide +kernel
  have hbelow : IsPlain 9999999.999999998 := .inr (.inr (by decide +kernel))
  have hfin : Binary64.magnitude 10000000 < Binary64.infinity := by decide +kernel
  have hten : ¬ IsPlain 10000000 := by
    rintro (h | h | ⟨-, h⟩) <;> exact absurd h (by decide +kernel)
  have hsmall : Binary64.magnitude (-9.999999999999998e-4) < Binary64.infinity := by decide +kernel
  have hzero : Binary64.isNaN 0 = false ∧ Binary64.negative 0 = false := by decide +kernel
  obtain ⟨text, hshown, hplain⟩ := (normal_display 9999999.999999998).2.2.1 hbelow
  obtain ⟨text', e, -, hshown', hscientific, he, -⟩ := (normal_display 10000000).2.2.2.1 hfin hten
  have hpositive : Binary64.negative 9999999.999999998 = false := by decide +kernel
  have hpositive' : Binary64.negative 10000000 = false := by decide +kernel
  rw [hpositive] at hshown
  rw [hpositive'] at hshown'
  refine ⟨⟨hnan, (normal_display Binary64.nan).1 hnan⟩, ⟨hinf, ?_⟩, ⟨hbelow, hshown ▸ hplain⟩,
    ⟨hfin, hten, e, hshown' ▸ hscientific, he⟩,
    ⟨hsmall, (normal_display (-9.999999999999998e-4)).2.2.2.2.1 hsmall⟩, hzero.1, hzero.2,
    (normal_display 0).2.2.2.2.2.2 hzero.1 hzero.2⟩
  rw [(normal_display (-1 / 0)).2.1 hinf]
  decide +kernel

end PocketCalculator
