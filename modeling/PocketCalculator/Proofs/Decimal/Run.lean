import Mathlib.Data.List.TakeWhile
import Mathlib.Tactic.Common
import PocketCalculator.Expression.Token
import PocketCalculator.Numeral

/-!
# Runs that are numbers

An expression has its numbers as runs of digits and points. Which runs are numbers can be said by
counting, and which number each of them is by leaving its point out; the reader of decimals and the
reader of numerals agree with that on every run.

## Main definitions

* `IsNumber` — a run with a digit and at most one point.
* `Decimal.ofRun` — the decimal number that such a run spells.

## Main results

* `isNumber_iff` — the two shapes of a number: digits, or digits around a point.
* `Decimal.ofText?_eq_some_iff` — a run is read as a decimal exactly if it is a number.
* `IsNumber.read` — a number is a numeral of the same value.
-/

namespace PocketCalculator

/-- A number of an expression: a run of digits and points that has a digit and at most one point. -/
structure IsNumber (run : List Char) : Prop where
  /-- There are only digits and points. -/
  numeric : ∀ c ∈ run, Token.isNumeric c = true
  /-- There is a digit. -/
  digit : ∃ c ∈ run, c.isDigit = true
  /-- There is at most one point. -/
  point : run.count '.' ≤ 1

/-- The decimal number that a run spells: its digits make the coefficient, and every character
after the point takes one off the exponent. -/
def Decimal.ofRun (run : List Char) : Decimal :=
  ⟨Nat.ofDigitChars 10 (run.filter Char.isDigit) 0,
    -((run.dropWhile (· != '.')).tail.length : Int)⟩

/-! ## Digits and points -/

/-- No digit is a point. -/
lemma ne_point_of_isDigit {c : Char} (h : c.isDigit = true) : c ≠ '.' := by
  rintro rfl
  exact absurd h (by decide)

/-- Digits have no other character among them. -/
lemma not_mem_digits {ds : List Char} (h : ∀ c ∈ ds, c.isDigit = true) {c : Char}
    (hc : c.isDigit = false) : c ∉ ds := by
  intro hmem
  rw [h c hmem] at hc
  exact absurd hc (by decide)

/-- Digits have no point among them. -/
lemma count_point_digits {ds : List Char} (h : ∀ c ∈ ds, c.isDigit = true) : ds.count '.' = 0 :=
  List.count_eq_zero.mpr (not_mem_digits h rfl)

/-- Digits may stand in a run. -/
lemma isNumeric_of_isDigit {c : Char} (h : c.isDigit = true) : Token.isNumeric c = true := by
  simp [Token.isNumeric, h]

/-- A run begins with digits, and if it goes on after them then with a point.

**Proof sketch.** Induction on the run: a digit in front joins the digits that the rest begins with,
and a point ends them. -/
lemma numeric_cases {run : List Char} (h : ∀ c ∈ run, Token.isNumeric c = true) :
    (∀ c ∈ run, c.isDigit = true) ∨
      ∃ whole rest, run = whole ++ '.' :: rest ∧ (∀ c ∈ whole, c.isDigit = true) ∧
        ∀ c ∈ rest, Token.isNumeric c = true := by
  induction run with
  | nil => exact .inl (by simp)
  | cons c run ih =>
    rw [List.forall_mem_cons] at h
    obtain ⟨hc, hrun⟩ := h
    rw [Token.isNumeric, Bool.or_eq_true, beq_iff_eq] at hc
    rcases hc with hc | rfl
    · rcases ih hrun with hd | ⟨whole, rest, rfl, hw, hr⟩
      · exact .inl (List.forall_mem_cons.mpr ⟨hc, hd⟩)
      · exact .inr ⟨c :: whole, rest, rfl, List.forall_mem_cons.mpr ⟨hc, hw⟩, hr⟩
    · exact .inr ⟨[], run, rfl, by simp, hrun⟩

/-- Digits, or digits with a point among or beside them, are numbers if there is a digit at all. -/
lemma isNumber_digits {ds : List Char} (hne : ds ≠ []) (hd : ∀ c ∈ ds, c.isDigit = true) :
    IsNumber ds where
  numeric c hc := isNumeric_of_isDigit (hd c hc)
  digit := by
    obtain ⟨c, hc⟩ := List.exists_mem_of_ne_nil ds hne
    exact ⟨c, hc, hd c hc⟩
  point := by rw [count_point_digits hd]; exact Nat.zero_le 1

@[inherit_doc isNumber_digits]
lemma isNumber_point {whole fraction : List Char} (hne : whole ++ fraction ≠ [])
    (hw : ∀ c ∈ whole, c.isDigit = true) (hf : ∀ c ∈ fraction, c.isDigit = true) :
    IsNumber (whole ++ '.' :: fraction) where
  numeric c hc := by
    simp only [List.mem_append, List.mem_cons] at hc
    rcases hc with hc | rfl | hc
    · exact isNumeric_of_isDigit (hw c hc)
    · decide
    · exact isNumeric_of_isDigit (hf c hc)
  digit := by
    obtain ⟨c, hc⟩ := List.exists_mem_of_ne_nil _ hne
    rcases List.mem_append.mp hc with hc | hc
    · exact ⟨c, List.mem_append_left _ hc, hw c hc⟩
    · exact ⟨c, List.mem_append_right _ (List.mem_cons_of_mem _ hc), hf c hc⟩
  point := by
    have hwhole := count_point_digits hw
    have hfraction := count_point_digits hf
    rw [List.count_append, List.count_cons_self]
    omega

/-- **The shapes of a number**: digits, or digits with a point among or beside them.

**Proof sketch.** A number is digits alone or goes on with a point after some digits
(`numeric_cases`). As it has no second point, what follows the first one is digits, and the digit
that it has stands on one of the two sides. -/
theorem isNumber_iff {run : List Char} :
    IsNumber run ↔
      (run ≠ [] ∧ ∀ c ∈ run, c.isDigit = true) ∨
      ∃ whole fraction, run = whole ++ '.' :: fraction ∧ whole ++ fraction ≠ [] ∧
        (∀ c ∈ whole, c.isDigit = true) ∧ ∀ c ∈ fraction, c.isDigit = true := by
  constructor
  · rintro ⟨hn, ⟨d, hd, hdigit⟩, hp⟩
    rcases numeric_cases hn with hall | ⟨whole, rest, rfl, hw, hr⟩
    · exact .inl ⟨List.ne_nil_of_mem hd, hall⟩
    · have hno : '.' ∉ rest := by
        rw [List.count_append, List.count_cons_self] at hp
        exact List.count_eq_zero.mp (by omega)
      have hf : ∀ c ∈ rest, c.isDigit = true := by
        intro c hc
        have hnum := hr c hc
        rw [Token.isNumeric, Bool.or_eq_true, beq_iff_eq] at hnum
        exact hnum.resolve_right fun heq => hno (heq ▸ hc)
      refine .inr ⟨whole, rest, rfl, ?_, hw, hf⟩
      rintro hnil
      obtain ⟨rfl, rfl⟩ := List.append_eq_nil_iff.mp hnil
      obtain rfl : d = '.' := by simpa using hd
      exact absurd hdigit (by decide)
  · rintro (⟨hne, hd⟩ | ⟨whole, fraction, rfl, hne, hw, hf⟩)
    · exact isNumber_digits hne hd
    · exact isNumber_point hne hw hf

/-! ## Reading decimals -/

namespace Decimal

/-- The decimal number of digits alone. -/
lemma ofRun_digits {ds : List Char} (h : ∀ c ∈ ds, c.isDigit = true) :
    ofRun ds = ⟨Nat.ofDigitChars 10 ds 0, 0⟩ := by
  have hdrop : ds.dropWhile (· != '.') = [] :=
    List.dropWhile_eq_nil_iff.mpr fun c hc => by simpa using ne_point_of_isDigit (h c hc)
  rw [ofRun, hdrop, List.filter_eq_self.mpr h]
  rfl

/-- The decimal number of digits around a point.

**Proof sketch.** The digits of the run are those on both sides of the point, and the point and what
follows it are what is left when everything up to the first point has been dropped. -/
lemma ofRun_point {whole fraction : List Char} (hw : ∀ c ∈ whole, c.isDigit = true)
    (hf : ∀ c ∈ fraction, c.isDigit = true) :
    ofRun (whole ++ '.' :: fraction) =
      ⟨Nat.ofDigitChars 10 (whole ++ fraction) 0, -(fraction.length : Int)⟩ := by
  have hdrop : (whole ++ '.' :: fraction).dropWhile (· != '.') = '.' :: fraction := by
    rw [List.dropWhile_append_of_pos fun c hc => by simpa using ne_point_of_isDigit (hw c hc)]
    simp
  have hfilter : (whole ++ '.' :: fraction).filter Char.isDigit = whole ++ fraction := by
    rw [List.filter_append, List.filter_eq_self.mpr hw, List.filter_cons_of_neg (by decide),
      List.filter_eq_self.mpr hf]
  rw [ofRun, hdrop, hfilter]
  rfl

/-- Digits are split as a mantissa that has no fraction. -/
lemma splitMantissa_digits {ds : List Char} (h : ∀ c ∈ ds, c.isDigit = true) :
    splitMantissa ds = (ds, [], []) := by
  have htake : ds.takeWhile Char.isDigit = ds := List.takeWhile_eq_self_iff.mpr h
  have hdrop : ds.dropWhile Char.isDigit = [] := List.dropWhile_eq_nil_iff.mpr h
  simp only [splitMantissa, htake, hdrop]

/-- Digits up to a point are the whole part of a mantissa, and the fraction is what follows.

**Proof sketch.** There are only digits up to the point, so the run of digits ends there. -/
lemma splitMantissa_point {whole : List Char} (rest : List Char)
    (hw : ∀ c ∈ whole, c.isDigit = true) :
    splitMantissa (whole ++ '.' :: rest) =
      (whole, rest.takeWhile Char.isDigit, rest.dropWhile Char.isDigit) := by
  have hdrop : (whole ++ '.' :: rest).dropWhile Char.isDigit = '.' :: rest := by
    rw [List.dropWhile_append_of_pos hw, List.dropWhile_cons_of_neg (by decide)]
  have htake : (whole ++ '.' :: rest).takeWhile Char.isDigit = whole := by
    rw [List.takeWhile_append_of_pos hw, List.takeWhile_cons_of_neg (by decide), List.append_nil]
  simp only [splitMantissa, htake, hdrop]

/-- A number is read as the decimal that its run spells.

**Proof sketch.** In either shape of a number (`isNumber_iff`) the mantissa takes up the whole run
and leaves nothing for a power of ten, and it has a digit. -/
lemma ofText?_of_isNumber {run : List Char} (h : IsNumber run) :
    ofText? run = some (ofRun run) := by
  rcases isNumber_iff.mp h with ⟨hne, hd⟩ | ⟨whole, fraction, rfl, hne, hw, hf⟩
  · simp [ofText?, splitMantissa_digits hd, ofRun_digits hd, readScale?, hne]
  · have htake : fraction.takeWhile Char.isDigit = fraction := List.takeWhile_eq_self_iff.mpr hf
    have hdrop : fraction.dropWhile Char.isDigit = [] := List.dropWhile_eq_nil_iff.mpr hf
    have hempty : (whole.isEmpty && fraction.isEmpty) = false := by
      rw [Bool.and_eq_false_iff, List.isEmpty_eq_false_iff, List.isEmpty_eq_false_iff]
      by_contra hboth
      push Not at hboth
      exact hne (List.append_eq_nil_iff.mpr hboth)
    simp [ofText?, splitMantissa_point fraction hw, htake, hdrop, hempty, ofRun_point hw hf,
      readScale?]

/-- A run that is read as a decimal is a number: a second point would have to be the mark of an
exponent.

**Proof sketch.** A run of digits is a number unless it is empty, and nothing is read from the empty
text. If there is a point, there are digits around it, or a second point follows. The second point
would be left over after the mantissa, where only the mark of a power of ten is read. -/
lemma isNumber_of_ofText? {run : List Char} {d : Decimal}
    (hn : ∀ c ∈ run, Token.isNumeric c = true) (h : ofText? run = some d) : IsNumber run := by
  rcases numeric_cases hn with hall | ⟨whole, rest, rfl, hw, hr⟩
  · refine isNumber_digits ?_ hall
    rintro rfl
    simp [ofText?, splitMantissa] at h
  · rcases numeric_cases hr with hf | ⟨fraction, more, rfl, hf, -⟩
    · refine isNumber_point ?_ hw hf
      intro hnil
      obtain ⟨rfl, rfl⟩ := List.append_eq_nil_iff.mp hnil
      simp [ofText?, splitMantissa] at h
    · have hdrop : (fraction ++ '.' :: more).dropWhile Char.isDigit = '.' :: more := by
        rw [List.dropWhile_append_of_pos hf, List.dropWhile_cons_of_neg (by decide)]
      simp only [ofText?, splitMantissa_point _ hw, hdrop, readScale?] at h
      split at h <;> simp at h

/-- **Reading a run**: it is read as a decimal exactly if it is a number.

**Proof sketch.** What is read is a number (`isNumber_of_ofText?`), and every number is read as the
decimal of its run, so that this is the one that has been read. -/
theorem ofText?_eq_some_iff {run : List Char} {d : Decimal}
    (hn : ∀ c ∈ run, Token.isNumeric c = true) :
    ofText? run = some d ↔ IsNumber run ∧ d = ofRun run := by
  constructor
  · intro h
    have hnumber := isNumber_of_ofText? hn h
    rw [ofText?_of_isNumber hnumber, Option.some.injEq] at h
    exact ⟨hnumber, h.symm⟩
  · rintro ⟨hnumber, rfl⟩
    exact ofText?_of_isNumber hnumber

end Decimal

/-! ## Reading numerals -/

/-- Digits and points have no capitals.

**Proof sketch.** A character is changed only if it lies among the capitals, and digits lie below
all of them. -/
lemma toLower_of_isNumeric {c : Char} (h : Token.isNumeric c = true) : c.toLower = c := by
  rw [Token.isNumeric, Bool.or_eq_true, beq_iff_eq] at h
  rcases h with h | rfl
  · refine dif_neg fun hupper => ?_
    simp only [Char.isDigit, Bool.and_eq_true, decide_eq_true_eq, ge_iff_le] at h
    exact absurd (UInt32.le_trans hupper.1 h.2) (by decide)
  · rfl

/-- The words among the numerals, in small letters. -/
def numeralWords : List (List Char) :=
  ["inf".toList, "infinity".toList, "nan".toList]

/-- Only these words are read as words.

**Proof sketch.** There are three comparisons to pass, and each is with one of the words. -/
lemma lower_mem_numeralWords {cs : List Char} {b : ℕ} (h : Numeral.word? cs = some b) :
    cs.map Char.toLower ∈ numeralWords := by
  simp only [Numeral.word?] at h
  split at h
  · next hword =>
    rcases hword with heq | heq
    · rw [heq]
      decide
    · rw [heq]
      decide
  · split at h
    · next heq =>
      rw [heq]
      decide
    · exact absurd h (Option.some_ne_none b).symm

/-- Every word has an `n` in it.

**Proof sketch.** What is read as a word is one of three words in small letters
(`lower_mem_numeralWords`), and each of these has an `n`. -/
lemma word?_eq_none {cs : List Char} (h : ∀ c ∈ cs, c.toLower ≠ 'n') :
    Numeral.word? cs = none := by
  refine Option.eq_none_iff_forall_ne_some.mpr fun b hb => ?_
  have hwords : numeralWords.all (·.contains 'n') = true := by decide
  have hletter := List.all_eq_true.mp hwords _ (lower_mem_numeralWords hb)
  obtain ⟨c, hc, heq⟩ := List.mem_map.mp (List.contains_iff_mem.mp hletter)
  exact h c hc heq

/-- A run is not a word. -/
lemma word?_of_numeric {run : List Char} (h : ∀ c ∈ run, Token.isNumeric c = true) :
    Numeral.word? run = none := by
  refine word?_eq_none fun c hc => ?_
  rw [toLower_of_isNumeric (h c hc)]
  rintro rfl
  exact absurd (h _ hc) (by decide)

namespace Numeral

/-- A text is read as the decimal that it spells. -/
lemma readDecimal_eq_ok_iff {cs : List Char} {d : Decimal} :
    readDecimal cs = .ok d ↔ Decimal.ofText? cs = some d := by
  unfold readDecimal
  cases Decimal.ofText? cs with
  | some d' => rw [Except.ok.injEq, Option.some.injEq]
  | none => exact ⟨nofun, nofun⟩

/-- A text that is not empty and spells no decimal is malformed. -/
lemma readDecimal_eq_error_iff {c : Char} {more : List Char} {err : NumeralFault} :
    readDecimal (c :: more) = .error err ↔
      Decimal.ofText? (c :: more) = none ∧ err = .malformed := by
  unfold readDecimal
  cases Decimal.ofText? (c :: more) with
  | some d => exact ⟨nofun, fun h => absurd h.1 nofun⟩
  | none => exact ⟨fun h => ⟨rfl, (Except.error.inj h).symm⟩, fun h => congrArg _ h.2.symm⟩

/-- **Digits and points are read as a decimal**: a run is no word and has no sign, and what is wrong
with it is the same in both ways of reading.

**Proof sketch.** A run begins with no sign, because it has only digits and points, and it is no
word, because it has no letter. So both ways of reading ask whether it spells a decimal, and if it
does not, both look at whether it is empty. -/
theorem read_of_numeric {run : List Char} (h : ∀ c ∈ run, Token.isNumeric c = true) :
    read run = (readDecimal run).map Decimal.toFloat := by
  have hmagnitude : magnitude? run = (Decimal.ofText? run).map Decimal.magnitude := by
    rw [magnitude?, word?_of_numeric h, Option.none_or]
  have hread : read? run = (Decimal.ofText? run).map Decimal.toFloat := by
    unfold read?
    split
    · exact absurd (h '-' (by simp)) (by decide)
    · exact absurd (h '+' (by simp)) (by decide)
    · rw [hmagnitude, Option.map_map]
      rfl
  rw [read, readDecimal, hread]
  cases Decimal.ofText? run <;> rfl

end Numeral

/-- A number is read as the magnitude of the decimal that its run spells. -/
lemma IsNumber.magnitude? {run : List Char} (h : IsNumber run) :
    Numeral.magnitude? run = some (Decimal.ofRun run).magnitude := by
  rw [Numeral.magnitude?, word?_of_numeric h.numeric, Decimal.ofText?_of_isNumber h]
  rfl

/-- **A number is a numeral**, and the double that it stands for is the one nearest to the decimal
that its run spells.

**Proof sketch.** A number has only digits and points, so it is read as the decimal that it spells
(`Numeral.read_of_numeric`), and this is the decimal of its run. -/
theorem IsNumber.read {run : List Char} (h : IsNumber run) :
    Numeral.read run = .ok (Decimal.ofRun run).toFloat := by
  rw [Numeral.read_of_numeric h.numeric,
    Numeral.readDecimal_eq_ok_iff.mpr (Decimal.ofText?_of_isNumber h)]
  rfl

end PocketCalculator
