import Mathlib.Data.List.Basic
import Mathlib.Tactic.Common
import PocketCalculator.Proofs.Expression.Failure

/-!
# The leftmost offence

A text is refused for the first thing in it that no expression can have there. What stands before it
could still become an expression, and what follows it does not change the refusal. A character that
is refused is the first one after which nothing helps; the end of a text is refused exactly if one
more digit would make the text an expression; and a run that is no number is refused as a whole.

## Main definitions

* `Viable` — a text that can be extended to one with a value.

## Main results

* `exists_of_unexpected` — a refused character.
* `evaluate_eq_unexpected_none_iff` — a refused end.
* `exists_of_badNumber` — a refused number.
* `leftmost_offence` — all three.
-/

namespace PocketCalculator

open Token (scan isNumeric)

variable {text s u : List Char} {err : CalcError}

/-! ## Texts with and without a value -/

/-- A text that can be extended to one with a value. -/
def Viable (text : List Char) : Prop :=
  ∃ more v, evaluate (text ++ more) = .ok v

/-- A text has no value exactly if it cannot be read, for the same cause. -/
lemma evaluate_eq_error_iff :
    evaluate text = .error err ↔ Expr.parse nestingLimit text = .error err := by
  unfold evaluate
  cases Expr.parse nestingLimit text with
  | error err' => simp [Except.map]
  | ok e => simp [Except.map]

/-- What is read has a value. -/
lemma exists_evaluate {e : Expr} (h : Expr.parse nestingLimit text = .ok e) :
    ∃ v, evaluate text = .ok v := by
  refine ⟨e.eval, ?_⟩
  rw [evaluate, h]
  rfl

/-- A text with a value is not refused. -/
lemma evaluate_ne_error (h : ∃ v, evaluate text = .ok v) :
    Expr.parse nestingLimit text ≠ .error err := by
  obtain ⟨v, hv⟩ := h
  rw [Ne, ← evaluate_eq_error_iff, hv]
  simp

/-- Where an operand is awaited and there is room for one, one more digit gives a value. -/
lemma Expr.Awaits.exists_evaluate {room : ℕ} (h : Expr.Awaits nestingLimit (room + 1) s) :
    ∃ v, evaluate (s ++ ['1']) = .ok v := by
  obtain ⟨e, he⟩ := h.exists_parse
  exact PocketCalculator.exists_evaluate he

/-! ## Refused characters -/

/-- A symbol that begins no operand is refused however the text goes on.

**Proof sketch.** The first character of what follows is no space. If it is numeric the first token
is a number, with which an operand can begin; otherwise it is the token of this character, and is
refused whatever comes after it (`Expr.Awaits.parse_symbol`). -/
lemma Expr.Awaits.symbol {limit room : ℕ} (h : Expr.Awaits limit (room + 1) s) {t : Token}
    {ts : List Token} (hu : u.head? ≠ some ' ') (hscan : scan u = t :: ts)
    (ht : Parser.begins t = false) :
    ∃ c us, u = c :: us ∧ c ≠ ' ' ∧ t.first = c ∧
      ∀ w, parse limit (s ++ c :: w) = .error (.unexpected (some c)) := by
  cases u with
  | nil => exact absurd hscan (by simp)
  | cons c us =>
    have hc : c ≠ ' ' := by simpa using hu
    rcases Token.scan_cons_cases hc with ⟨-, hnumber⟩ | ⟨hnum, hsymbol⟩
    · obtain ⟨more, ts', hts'⟩ := hnumber us
      obtain rfl : Token.number c more = t := (List.cons.inj (hts'.symm.trans hscan)).1
      exact absurd ht Bool.noConfusion
    · obtain rfl : Token.ofSymbol c = t := (List.cons.inj ((hsymbol us).symm.trans hscan)).1
      exact ⟨c, us, rfl, hc, Token.first_ofSymbol c, h.parse_symbol hnum hc ht⟩

/-- **A refused character** is in the text; the text before it is viable, and every text that goes
as far as this character is refused for it.

**Proof sketch.** Of the two ways in which reading fails (`Expr.parse_error_cases`), the first names
a character only if it begins no operand where one is awaited; a digit in its place gives a value.
In the second the text before the character is an expression itself. -/
theorem exists_of_unexpected {c : Char}
    (h : evaluate text = .error (.unexpected (some c))) :
    ∃ s u, text = s ++ c :: u ∧ c ≠ ' ' ∧ Viable s ∧
      ∀ w, evaluate (s ++ c :: w) = .error (.unexpected (some c)) := by
  simp only [evaluate_eq_error_iff] at h ⊢
  rcases Expr.parse_error_cases h with ⟨s, u, room, rfl, hu, hawaits, hrefused⟩ |
    ⟨s, c', u, rfl, hc, heq, ⟨e, he⟩, hall⟩
  · generalize hscan : scan u = ts at hrefused
    cases hrefused with
    | symbol hnone =>
      obtain ⟨c, us, rfl, hc, hfirst, hall⟩ := hawaits.symbol hu hscan hnone
      rw [hfirst]
      exact ⟨s, us, rfl, hc, ⟨['1'], hawaits.exists_evaluate⟩, hall⟩
  · obtain rfl : c = c' := by simpa using heq
    obtain ⟨v, hv⟩ := exists_evaluate he
    exact ⟨s, u, rfl, hc, ⟨[], v, by rwa [List.append_nil]⟩, hall⟩

/-! ## Refused numbers -/

/-- A run that is no number is refused where an operand is awaited, whatever follows the run. -/
lemma Expr.Awaits.badNumber {limit room : ℕ} (h : Expr.Awaits limit (room + 1) s)
    {run after : List Char} (hne : run ≠ []) (hrun : ∀ c ∈ run, isNumeric c = true)
    (hbad : Decimal.ofText? run = none) (hafter : ∀ c ∈ after.head?, isNumeric c = false) :
    parse limit (s ++ run ++ after) = .error (.badNumber run .malformed) := by
  obtain ⟨c, more, rfl⟩ := List.exists_cons_of_ne_nil hne
  rw [List.append_assoc]
  refine h.parse_eq_error ?_
  rw [Token.scan_run hrun hafter]
  exact .number hbad

/-- A text that begins with a number begins with the run of this number.

**Proof sketch.** The first character is that of the first token. It is numeric, as the token of any
other character is no number, and the run goes on to the first character that is not. -/
lemma exists_run {c : Char} {more : List Char} {ts : List Token} (hu : u.head? ≠ some ' ')
    (hscan : scan u = .number c more :: ts) :
    ∃ after, u = c :: more ++ after ∧ (∀ x ∈ c :: more, isNumeric x = true) ∧
      ∀ x ∈ after.head?, isNumeric x = false := by
  cases u with
  | nil => exact absurd hscan (by simp)
  | cons d us =>
    have hd : d ≠ ' ' := by simpa using hu
    have hlexical := Token.isLexical_of_mem_scan (hscan ▸ List.mem_cons_self)
    cases hnum : isNumeric d with
    | true =>
      rw [Token.scan_numeric hnum, List.cons.injEq, Token.number.injEq] at hscan
      obtain ⟨⟨rfl, rfl⟩, -⟩ := hscan
      refine ⟨us.dropWhile isNumeric, ?_, hlexical, Token.isNumeric_head_dropWhile us⟩
      rw [List.cons_append, List.takeWhile_append_dropWhile]
    | false =>
      rw [Token.scan_symbol hnum hd, List.cons.injEq] at hscan
      exact absurd hscan.1 (Token.ofSymbol_ne_number _ _ _)

/-- A run that is no number has two points at least, or no digit.

**Proof sketch.** With a digit and one point at most the run would be a number, and a number is read
as a decimal. -/
lemma not_isNumber {run : List Char} (hrun : ∀ c ∈ run, isNumeric c = true)
    (hbad : Decimal.ofText? run = none) :
    2 ≤ run.count '.' ∨ ∀ c ∈ run, c.isDigit = false := by
  by_contra hnot
  push Not at hnot
  obtain ⟨hpoints, c, hc, hdigit⟩ := hnot
  have hnumber : IsNumber run :=
    ⟨hrun, ⟨c, hc, by simpa using hdigit⟩, Nat.le_of_lt_succ hpoints⟩
  rw [Decimal.ofText?_of_isNumber hnumber] at hbad
  exact absurd hbad (by simp)

/-- A run that is no number stays none with one more digit, unless it ends with a point.

**Proof sketch.** The run ends with a digit, since it does not end with a point. So it has a digit,
and what keeps it from being a number are two points, which it has with one more digit too. -/
lemma ofText?_concat_eq_none {run : List Char} (hne : run ≠ [])
    (hrun : ∀ c ∈ run, isNumeric c = true) (hbad : Decimal.ofText? run = none)
    (hlast : run.getLast? ≠ some '.') : Decimal.ofText? (run ++ ['1']) = none := by
  have hdigit : (run.getLast hne).isDigit = true := by
    have hnum := hrun _ (List.getLast_mem hne)
    rw [Token.isNumeric, Bool.or_eq_true, beq_iff_eq] at hnum
    refine hnum.resolve_right fun hpoint => hlast ?_
    rw [List.getLast?_eq_some_getLast hne, hpoint]
  have hpoints : 2 ≤ run.count '.' := by
    refine (not_isNumber hrun hbad).resolve_right fun hno => ?_
    rw [hno _ (List.getLast_mem hne)] at hdigit
    exact absurd hdigit Bool.false_ne_true
  have hrun' : ∀ c ∈ run ++ ['1'], isNumeric c = true :=
    List.forall_mem_append.mpr ⟨hrun, List.forall_mem_singleton.mpr (by decide)⟩
  cases hread : Decimal.ofText? (run ++ ['1']) with
  | none => rfl
  | some d =>
    have hle := ((Decimal.ofText?_eq_some_iff hrun').mp hread).1.point
    rw [List.count_append] at hle
    omega

/-- **A refused number** is a longest run of the text, with two points or without a digit; the text
before it is viable, and the run is refused whatever follows it.

**Proof sketch.** A number is refused only where an operand is awaited (`Expr.parse_error_cases`)
and the next token is a run that is no decimal. This run is a longest one in the text
(`exists_run`), and it is refused in the same way whatever follows it (`Expr.Awaits.badNumber`). -/
theorem exists_of_badNumber {run : List Char} {fault : NumeralFault}
    (h : evaluate text = .error (.badNumber run fault)) :
    fault = .malformed ∧ ∃ before after, text = before ++ run ++ after ∧ run ≠ [] ∧
      (∀ c ∈ run, isNumeric c = true) ∧ (∀ c ∈ before.getLast?, isNumeric c = false) ∧
      (∀ c ∈ after.head?, isNumeric c = false) ∧
      (2 ≤ run.count '.' ∨ ∀ c ∈ run, c.isDigit = false) ∧ Viable before ∧
      ∀ after', (∀ c ∈ after'.head?, isNumeric c = false) →
        evaluate (before ++ run ++ after') = .error (.badNumber run .malformed) := by
  simp only [evaluate_eq_error_iff] at h ⊢
  rcases Expr.parse_error_cases h with ⟨s, u, room, rfl, hu, hawaits, hrefused⟩ |
    ⟨s, c, u, rfl, hc, heq, -⟩
  · generalize hscan : scan u = ts at hrefused
    cases hrefused with
    | @number room c more ts hbad =>
      obtain ⟨after, rfl, hrun, hafter⟩ := exists_run hu hscan
      refine ⟨rfl, s, after, (List.append_assoc _ _ _).symm, List.cons_ne_nil _ _, hrun,
        hawaits.apart, hafter, not_isNumber hrun hbad, ⟨['1'], hawaits.exists_evaluate⟩, ?_⟩
      exact fun after' => hawaits.badNumber (List.cons_ne_nil _ _) hrun hbad
  · exact absurd heq (by simp)

/-! ## Refused ends -/

/-- **A refused end**: a text is refused for its end exactly if it has no value, does not end with a
point, and has a value with one more digit.

**Proof sketch.** Any other refusal stays with one more digit: that of a character does whatever
follows, one for the nesting does, and a run that is no number stays none, as it does not end with
a point. -/
theorem evaluate_eq_unexpected_none_iff :
    evaluate text = .error (.unexpected none) ↔
      (∃ err, evaluate text = .error err) ∧ text.getLast? ≠ some '.' ∧
        ∃ v, evaluate (text ++ ['1']) = .ok v := by
  simp only [evaluate_eq_error_iff]
  constructor
  · intro h
    rcases Expr.parse_error_cases h with ⟨s, u, room, rfl, hu, hawaits, hrefused⟩ |
      ⟨s, c, u, rfl, hc, heq, -⟩
    · generalize hscan : scan u = ts at hrefused
      cases hrefused with
      | ended =>
        obtain rfl : u = [] := by
          cases u with
          | nil => rfl
          | cons c us =>
            rcases Token.scan_cons_cases (show c ≠ ' ' by simpa using hu) with
              ⟨-, hnumber⟩ | ⟨-, hsymbol⟩
            · obtain ⟨more, ts', hts'⟩ := hnumber us
              exact absurd (hts'.symm.trans hscan) (by simp)
            · exact absurd ((hsymbol us).symm.trans hscan) (by simp)
        rw [List.append_nil] at h ⊢
        refine ⟨⟨_, h⟩, fun hpoint => ?_, hawaits.exists_evaluate⟩
        exact absurd (hawaits.apart '.' hpoint) (by decide)
    · exact absurd heq (by simp)
  · rintro ⟨⟨err, h⟩, hlast, hvalue⟩
    rcases Expr.parse_error_cases h with ⟨s, u, room, rfl, hu, hawaits, hrefused⟩ |
      ⟨s, c, u, rfl, -, -, -, hall⟩
    · rw [List.append_assoc] at hvalue
      generalize hscan : scan u = ts at hrefused
      cases hrefused with
      | tooDeep => exact absurd (hawaits.parse_eq_error .tooDeep) (evaluate_ne_error hvalue)
      | ended => exact h
      | symbol hnone =>
        obtain ⟨c, us, rfl, -, -, hall⟩ := hawaits.symbol hu hscan hnone
        exact absurd (hall (us ++ ['1'])) (evaluate_ne_error hvalue)
      | @number room c more ts hbad =>
        obtain ⟨after, rfl, hrun, hafter⟩ := exists_run hu hscan
        rw [List.append_assoc] at hvalue
        cases after with
        | nil =>
          rw [List.append_nil, List.getLast?_append_of_ne_nil _ (List.cons_ne_nil _ _)] at hlast
          have hbad' := ofText?_concat_eq_none (List.cons_ne_nil _ _) hrun hbad hlast
          have hrun' : ∀ x ∈ c :: more ++ ['1'], isNumeric x = true :=
            List.forall_mem_append.mpr ⟨hrun, List.forall_mem_singleton.mpr (by decide)⟩
          have herror : Expr.parse nestingLimit (s ++ (c :: more ++ ['1']) ++ []) = .error _ :=
            hawaits.badNumber (by simp) hrun' hbad' (by simp)
          rw [List.append_nil] at herror
          exact absurd herror (evaluate_ne_error hvalue)
        | cons a after =>
          have herror : Expr.parse nestingLimit (s ++ (c :: more) ++ (a :: after ++ ['1'])) =
              .error _ :=
            hawaits.badNumber (List.cons_ne_nil _ _) hrun hbad (by simpa using hafter)
          rw [List.append_assoc] at herror
          exact absurd herror (evaluate_ne_error hvalue)
    · rw [List.append_assoc, List.cons_append] at hvalue
      exact absurd (hall (u ++ ['1'])) (evaluate_ne_error hvalue)

/-! ## All refusals but those for the nesting -/

/-- **Refusals point at the leftmost offence**, and nothing after it matters. If a character is
refused, it stands in the text and is no space; what stands before it can be extended to a text with
a value, and every text that begins with what goes up to it is refused for the same character. The
end is refused exactly if the text is refused, does not end with a point, and has a value with `1`
added. If a number is refused, it is malformed: a longest run of digits and points with two points
or without a digit; what stands before it can be extended to a text with a value, and every text
that begins with what goes up to its end and does not make the run longer is refused for the same
run.

**Proof sketch.** These are `exists_of_unexpected`, `evaluate_eq_unexpected_none_iff` and
`exists_of_badNumber`, which rest on the two ways in which reading fails. The place of a refused
character is the length of the text before it, and a text that goes as far as this character is that
text with something added. -/
theorem leftmost_offence (text : List Char) :
    (∀ c, evaluate text = .error (.unexpected (some c)) →
      c ≠ ' ' ∧ ∃ i, text[i]? = some c ∧ Viable (text.take i) ∧
        ∀ text', text.take (i + 1) <+: text' →
          evaluate text' = .error (.unexpected (some c))) ∧
    (evaluate text = .error (.unexpected none) ↔
      (∃ err, evaluate text = .error err) ∧ text.getLast? ≠ some '.' ∧
        ∃ v, evaluate (text ++ ['1']) = .ok v) ∧
    ∀ run fault, evaluate text = .error (.badNumber run fault) →
      fault = .malformed ∧ ∃ before after, text = before ++ run ++ after ∧ run ≠ [] ∧
        (∀ c ∈ run, isNumeric c = true) ∧ (∀ c ∈ before.getLast?, isNumeric c = false) ∧
        (∀ c ∈ after.head?, isNumeric c = false) ∧
        (2 ≤ run.count '.' ∨ ∀ c ∈ run, c.isDigit = false) ∧ Viable before ∧
        ∀ after', (∀ c ∈ after'.head?, isNumeric c = false) →
          evaluate (before ++ run ++ after') = .error (.badNumber run .malformed) := by
  refine ⟨fun c h => ?_, evaluate_eq_unexpected_none_iff, fun run fault h => exists_of_badNumber h⟩
  obtain ⟨s, u, rfl, hc, hviable, hall⟩ := exists_of_unexpected h
  have htake : (s ++ c :: u).take (s.length + 1) = s ++ [c] := by
    rw [List.take_length_add_append]
    rfl
  refine ⟨hc, s.length, by simp, by rwa [List.take_left], fun text' hstart => ?_⟩
  rw [htake] at hstart
  obtain ⟨w, rfl⟩ := hstart
  rw [List.append_assoc]
  exact hall w

/-- The general result for a closing parenthesis in place of an operand, for the end in place of
one, and for a run with two points. -/
theorem leftmost_offence_of_each_kind :
    (evaluate "2 * )3".toList = .error (.unexpected (some ')')) ∧
      ∃ i, "2 * )3".toList[i]? = some ')' ∧ Viable ("2 * )3".toList.take i)) ∧
    (evaluate "(1 -".toList = .error (.unexpected none) ∧
      ∃ v, evaluate ("(1 -".toList ++ ['1']) = .ok v) ∧
    (evaluate "4+1..2".toList = .error (.badNumber "1..2".toList .malformed) ∧
      ∃ before after, "4+1..2".toList = before ++ "1..2".toList ++ after ∧ Viable before) := by
  have hcharacter : evaluate "2 * )3".toList = .error (.unexpected (some ')')) := by
    decide +kernel
  have hend : evaluate "(1 -".toList = .error (.unexpected none) := by decide +kernel
  have hnumber : evaluate "4+1..2".toList = .error (.badNumber "1..2".toList .malformed) := by
    decide +kernel
  refine ⟨⟨hcharacter, ?_⟩, ⟨hend, ?_⟩, hnumber, ?_⟩
  · obtain ⟨-, i, hi, hviable, -⟩ := (leftmost_offence _).1 ')' hcharacter
    exact ⟨i, hi, hviable⟩
  · exact ((leftmost_offence _).2.1.mp hend).2.2
  · obtain ⟨-, before, after, hsplit, -, -, -, -, -, hviable, -⟩ :=
      (leftmost_offence _).2.2 _ _ hnumber
    exact ⟨before, after, hsplit, hviable⟩

end PocketCalculator
