import Mathlib.Tactic.Common
import PocketCalculator.Percent
import PocketCalculator.Proofs.Binary64.Bits
import PocketCalculator.Proofs.Decimal.Shortest
import PocketCalculator.Proofs.Display.Shape

/-!
# Reading results

The text of a result is a numeral, and reading it gives the result back with all its bits: the
digits around the point spell the shortest decimal, whichever of the two ways it is written in, the
sign is kept on a zero too, and the words are numerals themselves. So a hundredth can be taken of
every result.

## Main results

* `Decimal.readExponent?_integer` — a small exponent is read as it was written.
* `Display.value_ofRun_plain`, `Display.value_scientific` — both ways of writing keep the value.
* `Display.magnitude?_magnitudeText` — the text of a magnitude is read as this magnitude.
* `read_display` — the text of a double is read as this double.
* `percent_display` — a hundredth of a displayed result.
-/

namespace PocketCalculator

/-! ## Exponents -/

namespace Decimal

/-- As long as the digits of an exponent spell a number below 655360, all of them are counted.

**Proof sketch.** Induction on the digits. What they spell in the end is at least ten times what the
first ones spell as long as another digit follows, so that the number is still below 65536 wherever
a digit is read, and the digit counts. -/
lemma foldl_readDigits (ds : List Char) (n : ℕ) (h : Nat.ofDigitChars 10 ds n < 655360) :
    ds.foldl (fun n c => if n < 65536 then 10 * n + (c.toNat - '0'.toNat) else n) n =
      Nat.ofDigitChars 10 ds n := by
  induction ds generalizing n with
  | nil => rfl
  | cons c ds ih =>
    rw [Nat.ofDigitChars_cons] at h ⊢
    have hpos : 0 < 10 ^ ds.length := Nat.pow_pos (by decide)
    have hle : 10 * n + (c.toNat - '0'.toNat) ≤
        10 ^ ds.length * (10 * n + (c.toNat - '0'.toNat)) := Nat.le_mul_of_pos_left _ hpos
    have hfirst : n < 65536 := by
      rw [Nat.ofDigitChars_eq_ofDigitChars_zero] at h
      omega
    rw [List.foldl_cons, if_pos hfirst, ih _ h]

/-- The digits of a number below 655360 are read as this number.

**Proof sketch.** A number is written with one digit at least, and with nothing but digits. All of
them are counted (`foldl_readDigits`), and they spell the number. -/
lemma readDigits?_toDigits {n : ℕ} (h : n < 655360) : readDigits? (Nat.toDigits 10 n) = some n := by
  have hall : (Nat.toDigits 10 n).all Char.isDigit = true :=
    List.all_eq_true.mpr fun c hc => Nat.isDigit_of_mem_toDigits (by decide) (by decide) hc
  have hempty : (Nat.toDigits 10 n).isEmpty = false :=
    List.isEmpty_eq_false_iff.mpr Nat.toDigits_ne_nil
  have hfold := foldl_readDigits (Nat.toDigits 10 n) 0 (by rwa [Nat.ofDigitChars_ten_toDigits])
  rw [readDigits?, hall, hempty, hfold, Nat.ofDigitChars_ten_toDigits]
  rfl

/-- **An exponent is read as it was written**, if it is small.

**Proof sketch.** A minus sign is read as such, and without one the text begins with a digit, which
is no sign. The digits behind it are those of the absolute value. -/
theorem readExponent?_integer {e : ℤ} (h : e.natAbs < 655360) :
    readExponent? (Display.integer e) = some e := by
  have hdigits := readDigits?_toDigits h
  have hdigit : ∀ c ∈ Nat.toDigits 10 e.natAbs, c.isDigit = true := fun c hc =>
    Nat.isDigit_of_mem_toDigits (by decide) (by decide) hc
  unfold Display.integer
  by_cases hneg : e < 0
  · rw [if_pos hneg, readExponent?, hdigits]
    change some (-(e.natAbs : ℤ)) = some e
    rw [Option.some.injEq]
    omega
  · rw [if_neg hneg]
    generalize Nat.toDigits 10 e.natAbs = ds at hdigits hdigit
    unfold readExponent?
    split
    · exact absurd (hdigit '-' (by simp)) (by decide)
    · exact absurd (hdigit '+' (by simp)) (by decide)
    · rw [hdigits]
      change some (e.natAbs : ℤ) = some e
      rw [Option.some.injEq]
      omega

end Decimal

/-! ## Decimals -/

namespace Display

open Decimal (digitsValue)

variable {ds : List Char}

/-- A zero for nothing before the point says nothing. -/
lemma digitsValue_orZero_append (w f : List Char) :
    digitsValue (orZero w ++ f) (orZero w).length = digitsValue (w ++ f) w.length := by
  cases w with
  | nil => exact Decimal.digitsValue_zeros_append f 1 0
  | cons c w => rfl

/-- A zero for nothing after the point says nothing. -/
lemma digitsValue_append_orZero (w f : List Char) (point : ℤ) :
    digitsValue (w ++ orZero f) point = digitsValue (w ++ f) point := by
  cases f with
  | nil =>
    rw [List.append_nil]
    exact Decimal.digitsValue_append_zeros w 1 point
  | cons c f => rfl

/-- Digits with their point in place, filled up with zeros on both sides, keep their value.

**Proof sketch.** With a positive point the side before it is as long as the point is large: filled
up with zeros behind all digits, which say nothing, or cut off from further digits, which follow on
the other side. With any other point there is nothing before it, and zeros after it move the digits
to their place. -/
lemma digitsValue_filled (ds : List Char) (point : ℤ) :
    digitsValue ((ds.take point.toNat).rightpad point.toNat '0' ++
        (List.replicate (-point).toNat '0' ++ ds.drop point.toNat))
      ((ds.take point.toNat).rightpad point.toNat '0').length = digitsValue ds point := by
  rcases lt_or_ge 0 point with hpos | hneg
  · have hlength : (((ds.take point.toNat).rightpad point.toNat '0').length : ℤ) = point := by
      rw [List.length_rightpad, List.length_take]
      omega
    rw [hlength, show (-point).toNat = 0 by omega, List.replicate_zero, List.nil_append,
      List.rightpad, List.length_take, List.append_assoc]
    rcases Nat.le_total point.toNat ds.length with hle | hge
    · rw [show point.toNat - min point.toNat ds.length = 0 by omega, List.replicate_zero,
        List.nil_append, List.take_append_drop]
    · rw [List.take_of_length_le hge, List.drop_of_length_le hge, List.append_nil]
      exact Decimal.digitsValue_append_zeros ds _ point
  · have hzero : point.toNat = 0 := by omega
    rw [hzero]
    have hpoint : (0 : ℤ) = (-point).toNat + point := by omega
    change digitsValue (List.replicate (-point).toNat '0' ++ ds) (0 : ℤ) = digitsValue ds point
    rw [hpoint]
    exact Decimal.digitsValue_zeros_append ds _ point

/-- The value of digits around a point, and with a power of ten.

**Proof sketch.** The coefficient is spelled by the digits on both sides, and counting the places
after the point from the right is counting those before it from the left. -/
lemma value_around (w f : List Char) (e : ℤ) :
    (⟨Nat.ofDigitChars 10 (w ++ f) 0, e - (f.length : ℤ)⟩ : Decimal).value =
      digitsValue (w ++ f) (e + w.length) := by
  rw [Decimal.value, digitsValue, List.length_append]
  push_cast
  rw [show e + (w.length : ℤ) - (w.length + f.length) = e - (f.length : ℤ) by ring]

/-- A plain text is a number. -/
lemma isNumber_plain (hd : ∀ c ∈ ds, c.isDigit = true) (point : ℤ) : IsNumber (plain ds point) :=
  isNumber_point (List.append_ne_nil_of_left_ne_nil (orZero_ne_nil _) _)
    (isDigit_of_mem_whole hd point) (isDigit_of_mem_fraction hd point)

/-- **Plain writing keeps the value** of the digits.

**Proof sketch.** The run has digits on both sides of its point, so that its value is that of these
digits. The zeros that stand for nothing say nothing, and neither do those that fill the sides up
(`digitsValue_filled`). -/
theorem value_ofRun_plain (hd : ∀ c ∈ ds, c.isDigit = true) (point : ℤ) :
    (Decimal.ofRun (plain ds point)).value = digitsValue ds point := by
  have hwhole := isDigit_of_mem_whole hd point
  have hfraction := isDigit_of_mem_fraction hd point
  rw [plain, Decimal.ofRun_point hwhole hfraction, ← Int.zero_sub (_ : ℕ), value_around, zero_add,
    digitsValue_orZero_append, digitsValue_append_orZero, digitsValue_filled]

/-- A scientific text is taken apart into its first digit, its other digits and its exponent.

**Proof sketch.** The mantissa ends at the mark: one digit is before its point, and what follows the
point are digits up to the mark. The mark is one of those that begin a power of ten, and its
exponent is read as it was written (`readExponent?_integer`), since it is small. -/
lemma ofText?_scientific (hd : ∀ c ∈ ds, c.isDigit = true) {point : ℤ}
    (hpoint : (point - 1).natAbs < 655360) :
    Decimal.ofText? (scientific ds point) =
      some ⟨Nat.ofDigitChars 10 (ds.take 1 ++ orZero (ds.drop 1)) 0,
        point - 1 - ((orZero (ds.drop 1)).length : ℤ)⟩ := by
  have hw : ∀ c ∈ ds.take 1, c.isDigit = true := fun c hc => hd c (List.mem_of_mem_take hc)
  have hf : ∀ c ∈ orZero (ds.drop 1), c.isDigit = true :=
    isDigit_of_mem_orZero fun c hc => hd c (List.mem_of_mem_drop hc)
  have hempty : ¬((ds.take 1).isEmpty && (orZero (ds.drop 1)).isEmpty) = true := by
    rw [List.isEmpty_eq_false_iff.mpr (orZero_ne_nil _), Bool.and_false]
    exact Bool.false_ne_true
  have htake : (orZero (ds.drop 1) ++ 'E' :: integer (point - 1)).takeWhile Char.isDigit =
      orZero (ds.drop 1) := by
    rw [List.takeWhile_append_of_pos hf, List.takeWhile_cons_of_neg (by decide), List.append_nil]
  have hdrop : (orZero (ds.drop 1) ++ 'E' :: integer (point - 1)).dropWhile Char.isDigit =
      'E' :: integer (point - 1) := by
    rw [List.dropWhile_append_of_pos hf, List.dropWhile_cons_of_neg (by decide)]
  have htext : scientific ds point =
      ds.take 1 ++ '.' :: (orZero (ds.drop 1) ++ 'E' :: integer (point - 1)) := by
    rw [scientific_eq hd, List.append_assoc, List.cons_append]
  rw [htext, Decimal.ofText?, Decimal.splitMantissa_point _ hw, htake, hdrop]
  simp only
  rw [if_neg hempty, Decimal.readScale?, if_pos (.inr rfl), Decimal.readExponent?_integer hpoint]
  rfl

/-- **Scientific writing keeps the value** of the digits.

**Proof sketch.** One digit stands before the point, so that the exponent is one less than the place
of the point among the digits, and a zero for nothing after the point says nothing. -/
theorem value_scientific (hne : ds ≠ []) (point : ℤ) :
    (⟨Nat.ofDigitChars 10 (ds.take 1 ++ orZero (ds.drop 1)) 0,
      point - 1 - ((orZero (ds.drop 1)).length : ℤ)⟩ : Decimal).value = digitsValue ds point := by
  have hfirst : ((ds.take 1).length : ℤ) = 1 := by
    have hpos := List.length_pos_iff.mpr hne
    rw [List.length_take]
    omega
  rw [value_around, hfirst, sub_add_cancel, digitsValue_append_orZero, List.take_append_drop]

/-! ## Magnitudes -/

/-- The text of a magnitude begins with a digit, unless it is the word for the infinite one.

**Proof sketch.** A plain text begins with the side before its point, which is never empty and has
only digits. A scientific one begins with the first digit of the shortest decimal, and there is one,
because zero is written plainly. -/
theorem head_magnitudeText {b : ℕ} (hb : b ≤ Binary64.infinity) :
    ∃ c cs, magnitudeText b = c :: cs ∧ (c.isDigit = true ∨ c = 'I') := by
  have hd : ∀ c ∈ (Decimal.shortest b).digits, c.isDigit = true :=
    fun c hc => isDigit_of_mem_digits hc
  unfold magnitudeText
  split
  · exact ⟨'I', _, rfl, .inr rfl⟩
  · next hinf =>
    have hlt : b < Binary64.infinity := lt_of_le_of_ne hb hinf
    simp only
    split
    · have hwhole := isDigit_of_mem_whole hd (Decimal.shortest b).point
      obtain ⟨c, cs, hcs⟩ := List.exists_cons_of_ne_nil
        (orZero_ne_nil (((Decimal.shortest b).digits.take (Decimal.shortest b).point.toNat).rightpad
          (Decimal.shortest b).point.toNat '0'))
      rw [plain]
      rw [hcs] at hwhole ⊢
      exact ⟨c, _, rfl, .inl (hwhole c List.mem_cons_self)⟩
    · next hplain =>
      have hpos : 0 < b := Nat.pos_of_ne_zero fun hzero => hplain (.inl hzero)
      obtain ⟨c, cs, hcs⟩ := List.exists_cons_of_ne_nil (Decimal.digits_shortest_ne_nil hpos hlt)
      rw [scientific_eq hd, hcs]
      exact ⟨c, _, rfl, .inl (hd c (hcs ▸ List.mem_cons_self))⟩

/-- A text with a point is no word.

**Proof sketch.** What is read as a word is one of three words in small letters, and no word has a
point. -/
lemma word?_of_point {cs : List Char} (h : '.' ∈ cs) : Numeral.word? cs = none := by
  refine Option.eq_none_iff_forall_ne_some.mpr fun b hb => ?_
  have hwords : numeralWords.all (fun word => !word.contains '.') = true := by decide
  have hno := List.all_eq_true.mp hwords _ (lower_mem_numeralWords hb)
  have hlower : '.' ∈ cs.map Char.toLower := List.mem_map.mpr ⟨'.', h, by decide⟩
  rw [List.contains_iff_mem.mpr hlower] at hno
  exact absurd hno (by decide)

/-- **The text of a magnitude is read as this magnitude.**

**Proof sketch.** Infinity is read as a word. Any other text has a point and is no word, so that it
is read as a decimal. Both ways of writing keep the value of the digits (`value_ofRun_plain`,
`value_scientific`), which is that of the shortest decimal, and the shortest decimal reads back
(`Decimal.magnitude_shortest`). -/
theorem magnitude?_magnitudeText {b : ℕ} (hb : b ≤ Binary64.infinity) :
    Numeral.magnitude? (magnitudeText b) = some b := by
  have hd : ∀ c ∈ (Decimal.shortest b).digits, c.isDigit = true :=
    fun c hc => isDigit_of_mem_digits hc
  by_cases hinf : b = Binary64.infinity
  · rw [hinf, magnitudeText, if_pos rfl]
    decide
  · have hlt : b < Binary64.infinity := lt_of_le_of_ne hb hinf
    have hpoint : '.' ∈ magnitudeText b := by
      rw [← List.count_pos_iff, (isPointed_magnitudeText hinf).count_point]
      exact Nat.one_pos
    have hvalue := (Decimal.shortest b).value_eq_digitsValue
    have hback := Decimal.magnitude_shortest hlt
    rw [Numeral.magnitude?, word?_of_point hpoint, Option.none_or, magnitudeText, if_neg hinf]
    simp only
    split
    · rw [Decimal.ofText?_of_isNumber (isNumber_plain hd _), Option.map_some,
        Decimal.magnitude_congr ((value_ofRun_plain hd _).trans hvalue.symm), hback]
    · next hplain =>
      have hpos : 0 < b := Nat.pos_of_ne_zero fun hzero => hplain (.inl hzero)
      have hne := Decimal.digits_shortest_ne_nil hpos hlt
      obtain ⟨hlo, hhi⟩ := Decimal.point_shortest hlt
      rw [ofText?_scientific hd (by omega), Option.map_some,
        Decimal.magnitude_congr ((value_scientific hne _).trans hvalue.symm), hback]

end Display

/-! ## Results -/

/-- A result begins with a digit, with a minus sign, or with the first letter of a word.

**Proof sketch.** NaN is a word, a negative result begins with its sign, and a positive one as its
magnitude does (`Display.head_magnitudeText`). -/
theorem head_display (v : Float) :
    ∃ c cs, display v = c :: cs ∧ (c.isDigit = true ∨ c ∈ ['-', 'I', 'N']) := by
  unfold display
  split
  · exact ⟨'N', _, rfl, .inr (by decide)⟩
  · next hnum =>
    rw [Bool.not_eq_true, Binary64.isNaN_eq_false_iff] at hnum
    split
    · exact ⟨'-', _, rfl, .inr (by decide)⟩
    · obtain ⟨c, cs, hcs, hc⟩ := Display.head_magnitudeText hnum
      refine ⟨c, cs, hcs, hc.imp_right ?_⟩
      rintro rfl
      decide

/-- A text that begins with no sign is read as its magnitude. -/
lemma read?_unsigned {c : Char} {cs : List Char} (h : c ≠ '-' ∧ c ≠ '+') :
    Numeral.read? (c :: cs) =
      (Numeral.magnitude? (c :: cs)).map (Binary64.ofMagnitude false) := by
  unfold Numeral.read?
  split
  · next heq => exact absurd (List.cons.inj heq).1 h.1
  · next heq => exact absurd (List.cons.inj heq).1 h.2
  · rfl

/-- **The text of a result is read as this result**, bit for bit.

**Proof sketch.** There is one NaN, and its word is read as it. Any other result is its sign and its
magnitude (`Binary64.ofMagnitude_magnitude`): the sign is read off the first character, which
without a minus sign is no sign at all, and the text of the magnitude is read as the magnitude
(`Display.magnitude?_magnitudeText`). -/
theorem read_display (v : Float) : Numeral.read (display v) = .ok v := by
  have hread : Numeral.read? (display v) = some v := by
    unfold display
    split
    · next hnan =>
      rw [Binary64.eq_nan_of_isNaN hnan]
      rfl
    · next hnum =>
      rw [Bool.not_eq_true, Binary64.isNaN_eq_false_iff] at hnum
      have hback := Binary64.ofMagnitude_magnitude v
      split
      · next hneg =>
        rw [hneg] at hback
        rw [Numeral.read?, Display.magnitude?_magnitudeText hnum, Option.map_some, hback]
      · next hpos =>
        rw [Bool.not_eq_true] at hpos
        rw [hpos] at hback
        obtain ⟨c, cs, hcs, hc⟩ := Display.head_magnitudeText hnum
        have hsign : c ≠ '-' ∧ c ≠ '+' := by
          rcases hc with hc | rfl
          · constructor <;> rintro rfl <;> exact absurd hc (by decide)
          · decide
        have hmag := Display.magnitude?_magnitudeText hnum
        rw [hcs] at hmag ⊢
        rw [read?_unsigned hsign, hmag, Option.map_some, hback]
  rw [Numeral.read, hread]

/-- No digit is white space.

**Proof sketch.** There are ten digits to be checked. -/
lemma isBlank_of_isDigit {c : Char} (h : c.isDigit = true) : Text.isBlank c = false := by
  simp only [Char.isDigit, Bool.and_eq_true, decide_eq_true_eq, ge_iff_le] at h
  have hlo : 48 ≤ c.toNat := h.1
  have hhi : c.toNat ≤ 57 := h.2
  simp only [Text.isBlank]
  generalize c.toNat = n at hlo hhi
  interval_cases n <;> rfl

/-- There is no white space in a result.

**Proof sketch.** The characters of results are digits and the marks and letters of a list
(`mem_display`), and no one of these is white space. -/
lemma isBlank_of_mem_display {v : Float} {c : Char} (h : c ∈ display v) :
    Text.isBlank c = false := by
  rcases mem_display h with hd | hd
  · exact isBlank_of_isDigit hd
  · have hmarks : ".E-NaNInfinity".toList.all (!Text.isBlank ·) = true := by decide
    exact (Bool.not_eq_true' _).mp (List.all_eq_true.mp hmarks c hd)

/-- **White space at the ends** of a text that has none is taken off.

**Proof sketch.** Dropping white space from the front takes off what is in front and stops at the
text, if there is any. The same happens from the back, on the text reversed. -/
theorem Text.trim_append {pre cs post : List Char} (hpre : ∀ c ∈ pre, Text.isBlank c = true)
    (hcs : ∀ c ∈ cs, Text.isBlank c = false) (hpost : ∀ c ∈ post, Text.isBlank c = true) :
    Text.trim (pre ++ cs ++ post) = cs := by
  have hdrop : ∀ {ds : List Char} (es : List Char), (∀ c ∈ ds, Text.isBlank c = false) →
      ds ≠ [] → (ds ++ es).dropWhile Text.isBlank = ds ++ es := by
    intro ds es hds hne
    cases ds with
    | nil => exact absurd rfl hne
    | cons c ds => rw [List.cons_append, List.dropWhile_cons_of_neg (by simp [hds c])]
  rw [Text.trim, List.append_assoc, List.dropWhile_append_of_pos hpre]
  by_cases hne : cs = []
  · rw [hne, List.nil_append, List.dropWhile_eq_nil_iff.mpr hpost]
    rfl
  · rw [hdrop post hcs hne, List.reverse_append,
      List.dropWhile_append_of_pos fun c hc => hpost c (List.mem_reverse.mp hc)]
    have hback := hdrop [] (fun c hc => hcs c (List.mem_reverse.mp hc))
      (List.reverse_ne_nil_iff.mpr hne)
    rw [List.append_nil] at hback
    rw [hback, List.reverse_reverse]

/-- A text without white space is as it is without white space at its ends. -/
lemma trim_eq_self {cs : List Char} (h : ∀ c ∈ cs, Text.isBlank c = false) : Text.trim cs = cs := by
  have htrim := @Text.trim_append [] cs [] (by simp) h (by simp)
  rwa [List.nil_append, List.append_nil] at htrim

/-- **A hundredth of a displayed result** is that of the result.

**Proof sketch.** A result has no white space at its ends to be taken off, and its text is read as
the result (`read_display`). -/
theorem percent_display (v : Float) : percent (display v) = .ok (v / 100) := by
  rw [percent, trim_eq_self fun c hc => isBlank_of_mem_display hc, read_display]

end PocketCalculator
