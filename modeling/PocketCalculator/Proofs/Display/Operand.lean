import Mathlib.Tactic.Common
import PocketCalculator.Proofs.Binary64.Bits
import PocketCalculator.Proofs.Display.Reading
import PocketCalculator.Proofs.Expression.Offence

/-!
# Results in expressions

A result can stand in an expression only if it is shown plainly, for then its text is a number,
maybe with a minus sign in front. As an operand it has the value that it shows, with all its bits.
Any other result has a letter in its text that no expression goes on with, so that a text which
begins with it is refused whatever follows.

## Main definitions

* `IsPlain` — the results that are shown plainly.

## Main results

* `Display.isPlain_iff` — what this means for their magnitudes.
* `exists_operand_display` — a plain result is an operand.
* `evaluate_display_append` — a text that begins with any other result is refused.
-/

namespace PocketCalculator

open Token (scan isNumeric)

variable {v : Float}

/-! ## Plain results -/

/-- The results that are shown plainly: both zeros, and those from 0.001 up to ten million, be they
positive or negative. -/
def IsPlain (v : Float) : Prop :=
  v = 0 ∨ v = -0 ∨ (0.001 ≤ v.abs ∧ v.abs < 10000000)

namespace Display

/-- The least magnitude that is not written plainly any more is finite. -/
lemma plainBelow_lt_infinity : plainBelow < Binary64.infinity := by
  decide +kernel

/-- Results are shown plainly exactly if their magnitudes are.

**Proof sketch.** NaN compares with nothing and exceeds all magnitudes. For any other double the
absolute value is that of its magnitude, and the order of non-negative doubles is that of their
magnitudes, among which those of 0.001 and of ten million are the two bounds. Both zeros have the
magnitude `0`, and no other double has it. -/
theorem isPlain_iff :
    IsPlain v ↔ Binary64.magnitude v = 0 ∨
      (plainFrom ≤ Binary64.magnitude v ∧ Binary64.magnitude v < plainBelow) := by
  have hzero : (0 : Float) = Binary64.ofMagnitude false 0 := by decide +kernel
  have hnegzero : (-0 : Float) = Binary64.ofMagnitude true 0 := by decide +kernel
  have hfrom : (0.001 : Float) = Binary64.ofMagnitude false plainFrom := by decide +kernel
  have hbelow : (10000000 : Float) = Binary64.ofMagnitude false plainBelow := by decide +kernel
  have hfinite := plainBelow_lt_infinity
  have hfinite' : plainFrom ≤ Binary64.infinity := Binary64.nearest_le_infinity _ _
  cases hnan : Binary64.isNaN v with
  | true =>
    rw [Binary64.eq_nan_of_isNaN hnan]
    refine iff_of_false ?_ (by decide +kernel)
    rintro (h | h | ⟨h, -⟩) <;> exact absurd h (by decide +kernel)
  | false =>
    rw [Binary64.isNaN_eq_false_iff] at hnan
    have hmag : ∀ s, Binary64.magnitude (Binary64.ofMagnitude s 0) = 0 := fun s =>
      Binary64.magnitude_ofMagnitude (Nat.zero_le _)
    have habs : v.abs = Binary64.ofMagnitude false (Binary64.magnitude v) := by
      conv_lhs => rw [← Binary64.ofMagnitude_magnitude v]
      exact Binary64.abs_ofMagnitude hnan
    have hrange : (0.001 ≤ v.abs ∧ v.abs < 10000000) ↔
        (plainFrom ≤ Binary64.magnitude v ∧ Binary64.magnitude v < plainBelow) := by
      rw [habs, hfrom, hbelow, Binary64.lt_ofMagnitude_iff hnan hfinite.le,
        Binary64.le_ofMagnitude_iff hfinite' hnan]
    rw [IsPlain, hrange]
    constructor
    · rintro (h | h | h)
      · rw [h, hzero]
        exact .inl (hmag false)
      · rw [h, hnegzero]
        exact .inl (hmag true)
      · exact .inr h
    · rintro (h | h)
      · have hback := Binary64.ofMagnitude_magnitude v
        rw [h] at hback
        cases hneg : Binary64.negative v with
        | true => exact .inr (.inl (by rw [hnegzero, ← hback, hneg]))
        | false => exact .inl (by rw [hzero, ← hback, hneg])
      · exact .inr (.inr h)

/-- What is shown plainly is finite. -/
lemma magnitude_lt_of_isPlain (h : IsPlain v) : Binary64.magnitude v < Binary64.infinity := by
  rcases isPlain_iff.mp h with h | h
  · rw [h]
    decide
  · exact h.2.trans plainBelow_lt_infinity

/-- A minus sign, where there is one. -/
def sign (negative : Bool) : List Char :=
  if negative then ['-'] else []

/-- A result that is not NaN is shown by its sign and its magnitude. -/
lemma display_eq_sign_append (h : Binary64.isNaN v = false) :
    display v = sign (Binary64.negative v) ++ magnitudeText (Binary64.magnitude v) := by
  rw [display, if_neg (by simp [h]), sign]
  split <;> rfl

/-! ## Numbers as operands -/

/-- A number is an operand, also with a minus sign in front.

**Proof sketch.** A number is one token, and an operand. A minus sign in front is a token of its
own, and a sign in front of an operand gives an operand, whose value is the negative one. -/
lemma exists_operand {n : List Char} (hn : IsNumber n) (negative : Bool) :
    ∃ e, Derives .operand (scan (sign negative ++ n)) e ∧ e.height ≤ nestingLimit ∧
      e.eval = if negative then -(Decimal.ofRun n).toFloat else (Decimal.ofRun n).toFloat := by
  obtain ⟨c, more, rfl⟩ : ∃ c more, n = c :: more := by
    obtain ⟨c, hc, -⟩ := hn.digit
    exact List.exists_cons_of_ne_nil (List.ne_nil_of_mem hc)
  have hscan : scan (c :: more) = [.number c more] := by
    have hrun : scan (c :: more ++ []) = .number c more :: scan [] :=
      Token.scan_run hn.numeric (by simp)
    rwa [List.append_nil, Token.scan_nil] at hrun
  have hnumber := derives_number hn
  cases negative with
  | false =>
    refine ⟨.number (Decimal.ofRun (c :: more)), ?_, show 1 ≤ 256 by decide, rfl⟩
    rw [sign, if_neg Bool.false_ne_true, List.nil_append, hscan]
    exact hnumber
  | true =>
    refine ⟨.signed .minus (.number (Decimal.ofRun (c :: more))), ?_, show 2 ≤ 256 by decide, rfl⟩
    rw [sign, if_pos rfl, List.singleton_append, Token.scan_symbol (by decide) (by decide), hscan]
    exact .signed .minus hnumber

/-- A plain magnitude is written as a number, whose value it is.

**Proof sketch.** The text is a number, as plain texts are (`isNumber_plain`), so it is read as the
decimal of its run, and what is read is the magnitude it was written for
(`magnitude?_magnitudeText`). -/
lemma toFloat_magnitudeText {b : ℕ} (h : b = 0 ∨ (plainFrom ≤ b ∧ b < plainBelow)) :
    IsNumber (magnitudeText b) ∧
      (Decimal.ofRun (magnitudeText b)).toFloat = Binary64.ofMagnitude false b := by
  have hfinite : b < Binary64.infinity := by
    rcases h with rfl | h
    · decide
    · exact h.2.trans plainBelow_lt_infinity
  have hnumber : IsNumber (magnitudeText b) := by
    rw [magnitudeText, if_neg hfinite.ne]
    simp only [if_pos h]
    exact isNumber_plain (fun c hc => isDigit_of_mem_digits hc) _
  have hmag := magnitude?_magnitudeText hfinite.le
  rw [hnumber.magnitude?, Option.some.injEq] at hmag
  exact ⟨hnumber, by rw [Decimal.toFloat, hmag]⟩

end Display

open Display

/-- **A plain result is an operand**, and its value is the result, bit for bit.

**Proof sketch.** The result is shown as its sign and a plain magnitude. This is an operand
(`exists_operand`) with the value of the magnitude (`toFloat_magnitudeText`) or the negative of it,
and sign and magnitude make up the result. -/
theorem exists_operand_display (h : IsPlain v) :
    ∃ e, Derives .operand (scan (display v)) e ∧ e.height ≤ nestingLimit ∧ e.eval = v := by
  have hle : Binary64.magnitude v ≤ Binary64.infinity := (magnitude_lt_of_isPlain h).le
  have hnan : Binary64.isNaN v = false := Binary64.isNaN_eq_false_iff.mpr hle
  obtain ⟨hnumber, hvalue⟩ := toFloat_magnitudeText (isPlain_iff.mp h)
  obtain ⟨e, hd, hheight, heval⟩ := exists_operand hnumber (Binary64.negative v)
  rw [← display_eq_sign_append hnan] at hd
  refine ⟨e, hd, hheight, ?_⟩
  have hback := Binary64.ofMagnitude_magnitude v
  rw [heval, hvalue]
  cases hneg : Binary64.negative v with
  | true =>
    rw [hneg] at hback
    rw [if_pos rfl, Binary64.neg_ofMagnitude hle, Bool.not_false, hback]
  | false =>
    rw [hneg] at hback
    rw [if_neg Bool.false_ne_true, hback]

/-! ## Other results -/

namespace Display

/-- At the beginning of a text, and after a sign there, an operand is awaited.

**Proof sketch.** A text awaits an operand at its very beginning. A minus sign there opens an
operand, and another one is awaited after it. -/
lemma exists_awaits_sign (negative : Bool) :
    ∃ room, Expr.Awaits nestingLimit (room + 1) (sign negative) := by
  cases negative with
  | false =>
    refine ⟨255, ⟨by simp [sign], ?_⟩⟩
    rw [sign, if_neg Bool.false_ne_true, Token.scan_nil]
    exact Parser.Awaits.refl.first.first
  | true =>
    refine ⟨254, ⟨by simp [sign, isNumeric], ?_⟩⟩
    rw [sign, if_pos rfl, Token.scan_symbol (by decide) (by decide), Token.scan_nil]
    exact (Parser.Awaits.refl.signed .minus).first.first

/-- A text that begins with a word is refused for the first letter of the word.

**Proof sketch.** An operand is awaited where the word begins, and its first letter is a token that
begins no operand. -/
lemma evaluate_word (negative : Bool) {c : Char} (hnum : isNumeric c = false) (hc : c ≠ ' ')
    (hbegins : Parser.begins (Token.ofSymbol c) = false) (w : List Char) :
    evaluate (sign negative ++ c :: w) = .error (.unexpected (some c)) := by
  obtain ⟨room, hawaits⟩ := exists_awaits_sign negative
  exact evaluate_eq_error_iff.mpr (hawaits.parse_symbol hnum hc hbegins w)

/-- A text that begins with a scientific text is refused for the mark of its power of ten.

**Proof sketch.** The digits before the mark, with a sign, are a whole product. The mark is a token
that goes on with nothing, so it is left over, and is what the text is refused for. -/
lemma evaluate_scientific (negative : Bool) {ds : List Char} (hd : ∀ c ∈ ds, c.isDigit = true)
    (point : ℤ) (w : List Char) :
    evaluate (sign negative ++ scientific ds point ++ w) = .error (.unexpected (some 'E')) := by
  have hnumber : IsNumber (ds.take 1 ++ '.' :: orZero (ds.drop 1)) :=
    isNumber_point (List.append_ne_nil_of_right_ne_nil _ (orZero_ne_nil _))
      (fun c hc => hd c (List.mem_of_mem_take hc))
      (isDigit_of_mem_orZero fun c hc => hd c (List.mem_of_mem_drop hc))
  obtain ⟨e, hoperand, hheight, -⟩ := exists_operand hnumber negative
  have htext : sign negative ++ scientific ds point ++ w =
      sign negative ++ (ds.take 1 ++ '.' :: orZero (ds.drop 1)) ++
        'E' :: (integer (point - 1) ++ w) := by
    simp only [scientific_eq hd, List.append_assoc, List.cons_append]
  have hscan := Token.scan_append_cons (b := 'E')
    (sign negative ++ (ds.take 1 ++ '.' :: orZero (ds.drop 1))) (integer (point - 1) ++ w)
    (by decide)
  rw [Token.scan_symbol (by decide) (by decide)] at hscan
  rw [htext, evaluate_eq_error_iff]
  refine Expr.parse_eq_error_of_leftover (k := 0) ?_ hheight hscan rfl (.inl rfl) ⟨rfl, rfl⟩
  rw [List.replicate_zero, List.append_nil]
  exact .product (.operand hoperand)

end Display

/-- **A result that is not shown plainly stands in no expression**: a text that begins with it is
refused for a letter of it, whatever follows.

**Proof sketch.** A result that is not shown plainly is NaN, infinite or scientific. The two words
are refused for their first letter (`evaluate_word`), as an operand is awaited there, and a
scientific text for its mark (`evaluate_scientific`). -/
theorem evaluate_display_append (h : ¬ IsPlain v) (w : List Char) :
    ∃ c ∈ ['E', 'I', 'N'], evaluate (display v ++ w) = .error (.unexpected (some c)) := by
  cases hnan : Binary64.isNaN v with
  | true =>
    rw [display, if_pos hnan]
    exact ⟨'N', by decide, evaluate_word false (by decide) (by decide) rfl _⟩
  | false =>
    rw [display_eq_sign_append hnan]
    by_cases hinf : Binary64.magnitude v = Binary64.infinity
    · rw [hinf, magnitudeText, if_pos rfl, List.append_assoc]
      exact ⟨'I', by decide, evaluate_word _ (by decide) (by decide) rfl _⟩
    · rw [isPlain_iff] at h
      rw [magnitudeText, if_neg hinf]
      simp only [if_neg h]
      exact ⟨'E', by decide,
        evaluate_scientific _ (fun c hc => isDigit_of_mem_digits hc) _ _⟩

end PocketCalculator
