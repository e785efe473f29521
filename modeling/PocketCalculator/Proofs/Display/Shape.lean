import Mathlib.Data.List.TakeWhile
import Mathlib.Tactic.Common
import PocketCalculator.Display
import PocketCalculator.Proofs.Decimal.Run

/-!
# The shape of a result

A finite result is shown by digits, a point, further digits, and a power of ten if the number is
very large or very small; a minus sign may stand in front. Infinite and undefined results are words.
So there is never a space in a result, and there is a point in it exactly if it is finite.

## Main definitions

* `Display.IsPointed` — digits around a point, with or without a power of ten.

## Main results

* `Display.scientific_eq` — the steps of scientific writing put together.
* `Display.isPointed_magnitudeText` — a finite magnitude is shown in this way.
* `display_cases` — the three kinds of results.
* `mem_display` — the characters of results.
* `count_point_display`, `point_mem_display_iff` — the point of a result.
-/

namespace PocketCalculator

namespace Display

/-! ## Digits -/

/-- The digits of a decimal are digits. -/
lemma isDigit_of_mem_digits {d : Decimal} {c : Char} (h : c ∈ d.digits) : c.isDigit = true := by
  have hmem := (List.dropWhile_sublist _).subset (List.mem_reverse.mp h)
  exact Nat.isDigit_of_mem_toDigits (by decide) (by decide) (List.mem_reverse.mp hmem)

/-- Putting a zero for nothing makes no other characters than digits. -/
lemma isDigit_of_mem_orZero {ds : List Char} (hd : ∀ c ∈ ds, c.isDigit = true) :
    ∀ c ∈ orZero ds, c.isDigit = true := by
  unfold orZero
  split
  · exact List.forall_mem_singleton.mpr (by decide)
  · exact hd

/-- An integer has digits, and maybe a sign.

**Proof sketch.** An integer is the digits of its absolute value, with a minus sign in front if it
is negative. -/
lemma mem_integer {n : Int} {c : Char} (h : c ∈ integer n) : c.isDigit = true ∨ c = '-' := by
  have hdigits : ∀ c ∈ Nat.toDigits 10 n.natAbs, c.isDigit = true :=
    fun c hc => Nat.isDigit_of_mem_toDigits (by decide) (by decide) hc
  unfold integer at h
  split at h
  · rcases List.mem_cons.mp h with rfl | h
    · exact .inr rfl
    · exact .inl (hdigits c h)
  · exact .inl (hdigits c h)

/-! ## Scientific writing -/

/-- A significand gets a zero after its point if it has only one digit, and is left alone otherwise.
-/
lemma pointed_significand {ds : List Char} (hd : ∀ c ∈ ds, c.isDigit = true) :
    pointed (ds.take 1 ++ if (ds.drop 1).isEmpty then [] else '.' :: ds.drop 1) =
      ds.take 1 ++ '.' :: orZero (ds.drop 1) := by
  have hno : '.' ∉ ds.take 1 := fun hmem =>
    absurd (hd '.' (List.mem_of_mem_take hmem)) (by decide)
  unfold pointed orZero
  split
  · rw [List.append_nil, if_neg (by simpa using hno)]
  · rw [if_pos (by simp)]

/-- **Scientific writing**: the first digit, a point, the other digits or a zero, and the power of
ten after a capital mark.

**Proof sketch.** Before the `e` of the exponential text there are only digits and a point, so that
the text is cut there, and what follows is the power of ten. -/
theorem scientific_eq {ds : List Char} (hd : ∀ c ∈ ds, c.isDigit = true) (point : Int) :
    scientific ds point =
      ds.take 1 ++ '.' :: orZero (ds.drop 1) ++ 'E' :: integer (point - 1) := by
  obtain ⟨significand, hsignificand⟩ : ∃ cs, cs =
      ds.take 1 ++ if (ds.drop 1).isEmpty then [] else '.' :: ds.drop 1 := ⟨_, rfl⟩
  have hmark : ∀ c ∈ significand, (c != 'e') = true := by
    have hdigit : ∀ c ∈ ds, (c != 'e') = true := by
      rintro c hc
      rw [bne_iff_ne]
      rintro rfl
      exact absurd (hd 'e' hc) (by decide)
    intro c hc
    rw [hsignificand] at hc
    rcases List.mem_append.mp hc with hc | hc
    · exact hdigit c (List.mem_of_mem_take hc)
    · split at hc
      · exact absurd hc List.not_mem_nil
      · rcases List.mem_cons.mp hc with rfl | hc
        · decide
        · exact hdigit c (List.mem_of_mem_drop hc)
  have htake : (significand ++ 'e' :: integer (point - 1)).takeWhile (· != 'e') = significand := by
    rw [List.takeWhile_append_of_pos hmark, List.takeWhile_cons_of_neg (by decide),
      List.append_nil]
  have hdrop : (significand ++ 'e' :: integer (point - 1)).dropWhile (· != 'e') =
      'e' :: integer (point - 1) := by
    rw [List.dropWhile_append_of_pos hmark, List.dropWhile_cons_of_neg (by decide)]
  rw [scientific, exponential, ← hsignificand, capitalized, hdrop, htake, hsignificand,
    pointed_significand hd]

/-! ## Finite magnitudes -/

/-- Digits around a point, of which there is one at least after it, and maybe a power of ten. -/
def IsPointed (text : List Char) : Prop :=
  ∃ whole fraction scale : List Char, text = whole ++ '.' :: (fraction ++ scale) ∧
    (∀ c ∈ whole, c.isDigit = true) ∧ fraction ≠ [] ∧ (∀ c ∈ fraction, c.isDigit = true) ∧
    (scale = [] ∨ ∃ e : Int, scale = 'E' :: integer e)

/-- Before the point of a plain text there are digits. -/
lemma isDigit_of_mem_whole {ds : List Char} (hd : ∀ c ∈ ds, c.isDigit = true) (point : Int) :
    ∀ c ∈ orZero ((ds.take point.toNat).rightpad point.toNat '0'), c.isDigit = true := by
  refine isDigit_of_mem_orZero fun c hc => ?_
  rw [List.rightpad] at hc
  rcases List.mem_append.mp hc with hc | hc
  · exact hd c (List.mem_of_mem_take hc)
  · rw [List.eq_of_mem_replicate hc]
    decide

/-- After the point of a plain text there are digits. -/
lemma isDigit_of_mem_fraction {ds : List Char} (hd : ∀ c ∈ ds, c.isDigit = true) (point : Int) :
    ∀ c ∈ orZero (List.replicate (-point).toNat '0' ++ ds.drop point.toNat),
      c.isDigit = true := by
  refine isDigit_of_mem_orZero fun c hc => ?_
  rcases List.mem_append.mp hc with hc | hc
  · rw [List.eq_of_mem_replicate hc]
    decide
  · exact hd c (List.mem_of_mem_drop hc)

/-- Digits with their point in place are digits around a point.

**Proof sketch.** The two sides of the point consist of digits of the decimal and of zeros that fill
them up, and where nothing is left there is a zero. No power of ten follows. -/
lemma isPointed_plain {ds : List Char} (hd : ∀ c ∈ ds, c.isDigit = true) (point : Int) :
    IsPointed (plain ds point) := by
  refine ⟨_, _, [], by rw [List.append_nil]; rfl, ?_, orZero_ne_nil _, ?_, .inl rfl⟩
  · exact isDigit_of_mem_whole hd point
  · exact isDigit_of_mem_fraction hd point

/-- Digits with a power of ten are digits around a point.

**Proof sketch.** By `scientific_eq` the first digit is before the point, the others or a zero are
after it, and the power of ten is the scale. -/
lemma isPointed_scientific {ds : List Char} (hd : ∀ c ∈ ds, c.isDigit = true) (point : Int) :
    IsPointed (scientific ds point) := by
  refine ⟨ds.take 1, orZero (ds.drop 1), 'E' :: integer (point - 1), ?_, ?_, orZero_ne_nil _, ?_,
    .inr ⟨_, rfl⟩⟩
  · rw [scientific_eq hd, List.append_assoc, List.cons_append]
  · exact fun c hc => hd c (List.mem_of_mem_take hc)
  · exact isDigit_of_mem_orZero fun c hc => hd c (List.mem_of_mem_drop hc)

/-- **A finite magnitude** is shown by digits around a point.

**Proof sketch.** The digits of the shortest decimal are written in one of two ways, and both give
digits around a point (`isPointed_plain`, `isPointed_scientific`). -/
theorem isPointed_magnitudeText {b : Nat} (h : b ≠ Binary64.infinity) :
    IsPointed (magnitudeText b) := by
  have hd : ∀ c ∈ (Decimal.shortest b).digits, c.isDigit = true :=
    fun c hc => isDigit_of_mem_digits hc
  rw [magnitudeText, if_neg h]
  simp only
  split
  · exact isPointed_plain hd _
  · exact isPointed_scientific hd _

/-- There is one point among digits around a point.

**Proof sketch.** Neither the digits on the two sides nor the mark of the power of ten, its sign and
its digits are points. -/
lemma IsPointed.count_point {text : List Char} (h : IsPointed text) : text.count '.' = 1 := by
  obtain ⟨whole, fraction, scale, rfl, hw, -, hf, hs⟩ := h
  have hscale : scale.count '.' = 0 := by
    rcases hs with rfl | ⟨e, rfl⟩
    · rfl
    · refine List.count_eq_zero.mpr fun hmem => ?_
      rcases List.mem_cons.mp hmem with heq | hmem
      · exact absurd heq (by decide)
      · rcases mem_integer hmem with hd | heq
        · exact absurd hd (by decide)
        · exact absurd heq (by decide)
  rw [List.count_append, List.count_cons_self, List.count_append, count_point_digits hw,
    count_point_digits hf, hscale]

/-- Digits around a point have no other characters than digits, the point, the mark of a power of
ten and its sign.

**Proof sketch.** Part by part: the digits on both sides, the point between them, and the mark, the
sign and the digits of the power of ten. -/
lemma IsPointed.mem {text : List Char} (h : IsPointed text) {c : Char} (hc : c ∈ text) :
    c.isDigit = true ∨ c ∈ ['.', 'E', '-'] := by
  obtain ⟨whole, fraction, scale, rfl, hw, -, hf, hs⟩ := h
  simp only [List.mem_append, List.mem_cons] at hc
  rcases hc with hc | rfl | hc | hc
  · exact .inl (hw c hc)
  · exact .inr (by decide)
  · exact .inl (hf c hc)
  · rcases hs with rfl | ⟨e, rfl⟩
    · simp at hc
    · rcases List.mem_cons.mp hc with rfl | hc
      · exact .inr (by decide)
      · rcases mem_integer hc with hd | rfl
        · exact .inl hd
        · exact .inr (by decide)

end Display

/-! ## Results -/

/-- A word for an infinite or undefined result. -/
def IsResultWord (text : List Char) : Prop :=
  text = "NaN".toList ∨ text = "Infinity".toList ∨ text = '-' :: "Infinity".toList

/-- **The kinds of results**: a finite one is digits around a point, maybe with a sign in front, and
any other is a word.

**Proof sketch.** NaN is told first. Of the other magnitudes only that of infinity is a word; the
rest are digits around a point (`Display.isPointed_magnitudeText`). The sign is put in front of
either. -/
theorem display_cases (v : Float) :
    (Binary64.magnitude v < Binary64.infinity ∧ ∃ text, Display.IsPointed text ∧
      (display v = text ∨ display v = '-' :: text)) ∨
    (Binary64.infinity ≤ Binary64.magnitude v ∧ IsResultWord (display v)) := by
  unfold display
  by_cases hnan : Binary64.isNaN v = true
  · rw [if_pos hnan]
    rw [Binary64.isNaN, decide_eq_true_eq] at hnan
    exact .inr ⟨hnan.le, .inl rfl⟩
  · rw [if_neg hnan]
    rw [Binary64.isNaN, decide_eq_true_eq, not_lt] at hnan
    by_cases hinf : Binary64.magnitude v = Binary64.infinity
    · rw [hinf, Display.magnitudeText, if_pos rfl]
      refine .inr ⟨le_rfl, .inr ?_⟩
      split
      · exact .inr rfl
      · exact .inl rfl
    · refine .inl ⟨lt_of_le_of_ne hnan hinf, _, Display.isPointed_magnitudeText hinf, ?_⟩
      split
      · exact .inr rfl
      · exact .inl rfl

/-- **The characters of results**: there are digits, and the marks and letters of this list.

**Proof sketch.** A finite result has only digits, a point, a mark and signs
(`Display.IsPointed.mem`), and the words are checked letter by letter. -/
theorem mem_display {v : Float} {c : Char} (h : c ∈ display v) :
    c.isDigit = true ∨ c ∈ ".E-NaNInfinity".toList := by
  rcases display_cases v with ⟨-, text, htext, hd | hd⟩ | ⟨-, hd | hd | hd⟩
  · rw [hd] at h
    exact (htext.mem h).imp_right fun hc => List.mem_of_mem_take (i := 3) hc
  · rw [hd] at h
    rcases List.mem_cons.mp h with rfl | h
    · exact .inr (by decide)
    · exact (htext.mem h).imp_right fun hc => List.mem_of_mem_take (i := 3) hc
  all_goals
    rw [hd] at h
    exact .inr (List.Sublist.subset (by decide) h)

/-- There is no space in a result. -/
lemma space_not_mem_display (v : Float) : ' ' ∉ display v := by
  intro h
  rcases mem_display h with hd | hd <;> exact absurd hd (by decide)

/-- A result has one point if it is finite, and none otherwise.

**Proof sketch.** Digits around a point have one point (`Display.IsPointed.count_point`), a sign in
front adds none, and no word has one. -/
theorem count_point_display (v : Float) :
    (display v).count '.' = if Binary64.magnitude v < Binary64.infinity then 1 else 0 := by
  rcases display_cases v with ⟨hfin, text, htext, hd⟩ | ⟨hinf, hd⟩
  · rw [if_pos hfin]
    rcases hd with hd | hd
    · rw [hd, htext.count_point]
    · rw [hd, List.count_cons_of_ne (by decide), htext.count_point]
  · rw [if_neg (not_lt.mpr hinf)]
    rcases hd with hd | hd | hd <;> rw [hd] <;> decide

/-- A result has a point exactly if it is finite. -/
lemma point_mem_display_iff {v : Float} :
    '.' ∈ display v ↔ Binary64.magnitude v < Binary64.infinity := by
  rw [← List.count_pos_iff, count_point_display]
  by_cases hfin : Binary64.magnitude v < Binary64.infinity
  · simp [hfin]
  · simp [hfin]

end PocketCalculator
