import Mathlib.Tactic.Common
import PocketCalculator.Proofs.Display.Reading
import PocketCalculator.Proofs.Expression.Recognition

/-!
# Expressions that are numerals

A percentage is taken of a numeral, which can have an exponent, be a word and have white space of
any kind around it; an expression can have operators, parentheses and several signs. The texts of
which both can be made are those of a number with at most one sign directly in front of it and plain
spaces around it. There the two readers find the same value, down to the sign of a zero.

## Main definitions

* `IsPadded` — a number with a sign in front, or none, and spaces around it.

## Main results

* `IsPadded.evaluate`, `IsPadded.percent` — what the two readers make of a padded number.
* `exists_isPadded` — what both readers accept is a padded number.
-/

namespace PocketCalculator

open Token (scan isNumeric)

/-! ## Padded numbers -/

/-- A sign as it is written, if it is. -/
def signText : Option Sign → List Char
  | none => []
  | some .plus => ['+']
  | some .minus => ['-']

/-- The effect of a sign, if there is one. -/
def applySign : Option Sign → Float → Float
  | none, v => v
  | some s, v => s.apply v

/-- `IsPadded s run text` says that the text is the number `run` with the sign `s` directly in front
of it, if that is a sign, and with plain spaces around both. -/
def IsPadded (s : Option Sign) (run text : List Char) : Prop :=
  IsNumber run ∧ ∃ m n : ℕ,
    text = List.replicate m ' ' ++ (signText s ++ run) ++ List.replicate n ' '

/-! ## White space -/

namespace Text

/-- A text is the white space at its beginning, what is left without that at both ends, and the
white space at its end.

**Proof sketch.** The white space at the beginning is dropped first, and then that at the end of
what is left, with the text reversed. Both times what is dropped and what is left make up what there
was. -/
lemma exists_trim (cs : List Char) :
    ∃ pre post, cs = pre ++ trim cs ++ post ∧ (∀ c ∈ pre, isBlank c = true) ∧
      ∀ c ∈ post, isBlank c = true := by
  refine ⟨cs.takeWhile isBlank, ((cs.dropWhile isBlank).reverse.takeWhile isBlank).reverse, ?_,
    fun c hc => List.mem_takeWhile_imp hc,
    fun c hc => List.mem_takeWhile_imp (List.mem_reverse.mp hc)⟩
  rw [trim, List.append_assoc, ← List.reverse_append, List.takeWhile_append_dropWhile,
    List.reverse_reverse, List.takeWhile_append_dropWhile]

end Text

/-- No digit and no point is white space. -/
lemma isBlank_of_isNumeric {c : Char} (h : isNumeric c = true) : Text.isBlank c = false := by
  rw [isNumeric, Bool.or_eq_true, beq_iff_eq] at h
  rcases h with h | rfl
  · exact isBlank_of_isDigit h
  · rfl

/-! ## Reading padded numbers -/

namespace IsPadded

variable {s : Option Sign} {run text : List Char}

/-- A padded number has the tokens of its sign and its run.

**Proof sketch.** Spaces have no tokens on either side, a sign is a token by itself, and the run is
one number, since nothing follows it but spaces. -/
lemma scan_eq (h : IsPadded s run text) :
    scan text = (s.map Sign.token).toList ++ Token.ofRun run := by
  obtain ⟨hrun, m, n, rfl⟩ := h
  have hspaces : scan (signText s ++ run ++ List.replicate n ' ') = scan (signText s ++ run) := by
    rw [Token.scan_append]
    · have hnil := Token.scan_spaces n []
      rw [List.append_nil] at hnil
      rw [hnil, Token.scan_nil, List.append_nil]
    · intro x _ y hy _
      rw [List.eq_of_mem_replicate (List.mem_of_mem_head? hy)]
      rfl
  have hscan : scan (run ++ []) = Token.ofRun run ++ scan [] :=
    Token.scan_ofRun hrun.numeric (by simp)
  rw [List.append_nil, Token.scan_nil, List.append_nil] at hscan
  rw [List.append_assoc, Token.scan_spaces, hspaces]
  rcases s with _ | s
  · exact hscan
  · cases s with
    | plus => exact (Token.scan_symbol (by decide) (by decide) run).trans (congrArg _ hscan)
    | minus => exact (Token.scan_symbol (by decide) (by decide) run).trans (congrArg _ hscan)

/-- **A padded number is an expression**, and its value is the number with its sign.

**Proof sketch.** The tokens are a number, or a sign and a number (`IsPadded.scan_eq`), and this is
an operand with one or two operands one within another. -/
theorem evaluate (h : IsPadded s run text) :
    evaluate text = .ok (applySign s (Decimal.ofRun run).toFloat) := by
  have hrun := h.1
  have hscan := h.scan_eq
  cases run with
  | nil => exact absurd hrun.digit (by simp)
  | cons c more =>
    have hnumber := derives_number hrun
    have hvalue : ∀ {e : Expr}, Derives .operand (scan text) e → e.height ≤ nestingLimit →
        PocketCalculator.evaluate text = .ok e.eval := by
      intro e hd hheight
      refine evaluate_of_derives (k := 0) ?_ hheight
      rw [List.replicate_zero, List.append_nil]
      exact .product (.operand hd)
    cases s with
    | none =>
      rw [hscan] at hvalue
      exact hvalue hnumber (show 1 ≤ 256 by decide)
    | some s =>
      rw [hscan] at hvalue
      exact hvalue (.signed s hnumber) (show 2 ≤ 256 by decide)

/-- **A padded number is a numeral**, and a hundredth of it is taken with its sign.

**Proof sketch.** White space is taken off the ends, where the sign and the run have none. The sign
is read off the first character and the rest is read as the magnitude of the number, so that it is
the sign that tells the double from its negative. -/
theorem percent (h : IsPadded s run text) :
    percent text = .ok (applySign s (Decimal.ofRun run).toFloat / 100) := by
  obtain ⟨hrun, m, n, rfl⟩ := h
  have hspace : ∀ {k : ℕ}, ∀ c ∈ List.replicate k ' ', Text.isBlank c = true := by
    intro k c hc
    rw [List.eq_of_mem_replicate hc]
    rfl
  have hvisible : ∀ c ∈ signText s ++ run, Text.isBlank c = false := by
    refine List.forall_mem_append.mpr ⟨?_, fun c hc => isBlank_of_isNumeric (hrun.numeric c hc)⟩
    rcases s with _ | s
    · simp [signText]
    · cases s <;> exact List.forall_mem_singleton.mpr rfl
  have hread : Numeral.read (signText s ++ run) =
      .ok (applySign s (Decimal.ofRun run).toFloat) := by
    rcases s with _ | s
    · exact hrun.read
    · have hle := Decimal.magnitude_le_infinity (Decimal.ofRun run)
      cases s with
      | plus =>
        rw [signText, Numeral.read, List.singleton_append, Numeral.read?, hrun.magnitude?]
        rfl
      | minus =>
        rw [signText, Numeral.read, List.singleton_append, Numeral.read?, hrun.magnitude?,
          applySign, Sign.apply, Decimal.toFloat, Binary64.neg_ofMagnitude hle]
        rfl
  rw [PocketCalculator.percent, Text.trim_append hspace hvisible hspace, hread]

end IsPadded

/-! ## What both readers accept -/

/-- No expression has a stray character among its tokens.

**Proof sketch.** Induction on the derivation; every token that a rule adds is a number, an
operator, a sign or a parenthesis. -/
lemma Derives.stray_not_mem {r : Rank} {ts : List Token} {e : Expr} (h : Derives r ts e)
    (c : Char) : .stray c ∉ ts := by
  induction h with
  | number => simp
  | signed s _ ih => cases s <;> simpa [Sign.token] using ih
  | paren _ ih => simpa using ih
  | operand _ ih => exact ih
  | times op _ _ _ ihl ihr => cases op <;> simp [Operator.token, ihl, ihr]
  | product _ ih => exact ih
  | plus op _ _ _ ihl ihr => cases op <;> simp [Operator.token, ihl, ihr]

/-- The characters of expressions that are no digits and no points. -/
def expressionMarks : List Char := [' ', '+', '-', '*', '/', '(', ')']

/-- A text with a value has no other characters than those of expressions.

**Proof sketch.** Any other character is a stray token wherever it stands, so the tokens of the text
would have a stray one, and those of an expression have none. -/
lemma mem_of_evaluate {text : List Char} {v : Float} (h : evaluate text = .ok v) {c : Char}
    (hc : c ∈ text) : isNumeric c = true ∨ c ∈ expressionMarks := by
  obtain ⟨k, e, hd, -, -⟩ := derives_of_evaluate h
  by_contra hother
  rw [not_or, Bool.not_eq_true] at hother
  obtain ⟨hnum, hmark⟩ := hother
  have hstray : Token.ofSymbol c = .stray c := by
    unfold Token.ofSymbol
    split
    case h_7 => rfl
    all_goals exact absurd (by decide) hmark
  have hcount := Token.count_scan hnum (fun hspace => hmark (hspace ▸ by decide)) text
  have hmem : Token.ofSymbol c ∈ scan text := by
    rw [← List.count_pos_iff, hcount]
    exact List.count_pos_iff.mpr hc
  exact hd.stray_not_mem c (List.mem_append_left _ (hstray ▸ hmem))

/-- The only white space of a text with a value are plain spaces.

**Proof sketch.** Digits and points are no white space, and among the other characters of
expressions only the space is. -/
lemma eq_space_of_isBlank {text : List Char} {v : Float} (h : evaluate text = .ok v) {c : Char}
    (hc : c ∈ text) (hblank : Text.isBlank c = true) : c = ' ' := by
  rcases mem_of_evaluate h hc with hnum | hmark
  · rw [isBlank_of_isNumeric hnum] at hblank
    exact absurd hblank Bool.false_ne_true
  · have hmarks : expressionMarks.all (fun c => c == ' ' || !Text.isBlank c) = true := by decide
    simpa [hblank] using List.all_eq_true.mp hmarks c hmark

/-- What is read as a power of ten begins with the mark of one, if it is anything. -/
lemma Decimal.eq_nil_of_readScale? {cs : List Char} {e : ℤ} (h : readScale? cs = some e)
    (hmark : ∀ c ∈ cs, c ≠ 'e' ∧ c ≠ 'E') : cs = [] := by
  cases cs with
  | nil => rfl
  | cons c cs =>
    have hc := hmark c List.mem_cons_self
    rw [readScale?, if_neg (by simp [hc])] at h
    exact absurd h (by simp)

/-- A decimal without the mark of a power of ten is a number.

**Proof sketch.** Without the mark nothing can follow the mantissa. So the text is digits, or digits
with a point among them, and is a run that is read as a decimal (`isNumber_of_ofText?`). -/
lemma Decimal.isNumber_of_no_scale {cs : List Char} {d : Decimal} (h : ofText? cs = some d)
    (hmark : ∀ c ∈ cs, c ≠ 'e' ∧ c ≠ 'E') : IsNumber cs := by
  have hnothing : ∀ {whole fraction rest : List Char}, splitMantissa cs = (whole, fraction, rest) →
      (∀ c ∈ rest, c ∈ cs) → rest = [] := by
    intro whole fraction rest hsplit hrest
    simp only [ofText?, hsplit] at h
    obtain ⟨e, he, -⟩ := Option.map_eq_some_iff.mp (Option.ite_none_left_eq_some.mp h).2
    exact eq_nil_of_readScale? he fun c hc => hmark c (hrest c hc)
  refine isNumber_of_ofText? ?_ h
  have hcut := List.takeWhile_append_dropWhile (p := Char.isDigit) (l := cs)
  have hwhole : ∀ c ∈ cs.takeWhile Char.isDigit, c.isDigit = true :=
    fun c hc => List.mem_takeWhile_imp hc
  cases hdrop : cs.dropWhile Char.isDigit with
  | nil => exact fun c hc => isNumeric_of_isDigit (List.dropWhile_eq_nil_iff.mp hdrop c hc)
  | cons x rest =>
    rw [hdrop] at hcut
    by_cases hx : x = '.'
    · subst hx
      have hsplit := splitMantissa_point rest hwhole
      rw [hcut] at hsplit
      have hend := hnothing hsplit fun c hc => by
        rw [← hcut]
        have hrest := (List.dropWhile_sublist Char.isDigit).subset hc
        exact List.mem_append_right _ (List.mem_cons_of_mem _ hrest)
      rw [← hcut]
      refine List.forall_mem_append.mpr ⟨fun c hc => isNumeric_of_isDigit (hwhole c hc),
        List.forall_mem_cons.mpr ⟨rfl, fun c hc => isNumeric_of_isDigit ?_⟩⟩
      exact List.dropWhile_eq_nil_iff.mp hend c hc
    · have hsplit : splitMantissa cs = (cs.takeWhile Char.isDigit, [], x :: rest) := by
        unfold splitMantissa
        rw [hdrop]
        split
        · next heq => exact absurd (List.cons.inj heq).1 hx
        · rfl
      have hend := hnothing hsplit fun c hc => by
        rw [← hcut]
        exact List.mem_append_right _ hc
      exact absurd hend (List.cons_ne_nil _ _)

/-- An unsigned numeral of the characters of expressions is a number.

**Proof sketch.** The characters of expressions are no letters. So the text has no `n` and is no
word, and it has no mark of a power of ten. -/
lemma isNumber_of_magnitude? {cs : List Char} {b : ℕ} (h : Numeral.magnitude? cs = some b)
    (hcs : ∀ c ∈ cs, isNumeric c = true ∨ c ∈ expressionMarks) : IsNumber cs := by
  have hletter : ∀ c ∈ cs, c.toLower ≠ 'n' ∧ c ≠ 'e' ∧ c ≠ 'E' := by
    intro c hc
    rcases hcs c hc with hnum | hmark
    · rw [toLower_of_isNumeric hnum]
      refine ⟨?_, ?_, ?_⟩ <;> rintro rfl <;> exact absurd hnum (by decide)
    · have hmarks : expressionMarks.all
          (fun c => c.toLower != 'n' && c != 'e' && c != 'E') = true := by decide
      simpa [and_assoc] using List.all_eq_true.mp hmarks c hmark
  rw [Numeral.magnitude?, word?_eq_none fun c hc => (hletter c hc).1, Option.none_or] at h
  obtain ⟨d, hd, -⟩ := Option.map_eq_some_iff.mp h
  exact Decimal.isNumber_of_no_scale hd fun c hc => (hletter c hc).2

/-- A numeral of the characters of expressions is a number, maybe with a sign in front.

**Proof sketch.** A sign in front is read off first. What is left is read as a magnitude, and is a
number by `isNumber_of_magnitude?`. -/
lemma exists_isNumber {cs : List Char} {v : Float} (h : Numeral.read cs = .ok v)
    (hcs : ∀ c ∈ cs, isNumeric c = true ∨ c ∈ expressionMarks) :
    ∃ s run, cs = signText s ++ run ∧ IsNumber run := by
  obtain ⟨w, hread⟩ : ∃ w, Numeral.read? cs = some w := by
    rw [← Option.isSome_iff_exists]
    cases hread : Numeral.read? cs with
    | none => simp [Numeral.read, hread] at h
    | some w => rfl
  unfold Numeral.read? at hread
  split at hread
  · next run =>
    obtain ⟨b, hb, -⟩ := Option.map_eq_some_iff.mp hread
    exact ⟨some .minus, run, rfl, isNumber_of_magnitude? hb (List.forall_mem_cons.mp hcs).2⟩
  · next run =>
    obtain ⟨b, hb, -⟩ := Option.map_eq_some_iff.mp hread
    exact ⟨some .plus, run, rfl, isNumber_of_magnitude? hb (List.forall_mem_cons.mp hcs).2⟩
  · obtain ⟨b, hb, -⟩ := Option.map_eq_some_iff.mp hread
    exact ⟨none, cs, rfl, isNumber_of_magnitude? hb hcs⟩

/-- **What both readers accept** is a padded number.

**Proof sketch.** The value of the expression says which characters there are: no letters, so that
the numeral is no word and has no power of ten, and no white space but plain spaces. -/
theorem exists_isPadded {text : List Char} {v w : Float} (hv : evaluate text = .ok v)
    (hw : percent text = .ok w) : ∃ s run, IsPadded s run text := by
  obtain ⟨pre, post, htext, hpre, hpost⟩ := Text.exists_trim text
  obtain ⟨x, hread⟩ : ∃ x, Numeral.read (Text.trim text) = .ok x := by
    cases hread : Numeral.read (Text.trim text) with
    | ok x => exact ⟨x, rfl⟩
    | error fault => simp [percent, hread] at hw
  have hmem : ∀ {c : Char}, c ∈ pre ++ Text.trim text ++ post → c ∈ text := fun h => htext ▸ h
  obtain ⟨s, run, hcore, hrun⟩ := exists_isNumber hread fun c hc =>
    mem_of_evaluate hv (hmem (by simp [hc]))
  have hspaces : ∀ {cs : List Char}, (∀ c ∈ cs, Text.isBlank c = true) → (∀ c ∈ cs, c ∈ text) →
      cs = List.replicate cs.length ' ' := fun hblank hsub =>
    List.eq_replicate_of_mem fun c hc => eq_space_of_isBlank hv (hsub c hc) (hblank c hc)
  have hleft := hspaces hpre fun c hc => hmem (by simp [hc])
  have hright := hspaces hpost fun c hc => hmem (by simp [hc])
  refine ⟨s, run, hrun, pre.length, post.length, ?_⟩
  rw [← hleft, ← hright, ← hcore]
  exact htext

end PocketCalculator
