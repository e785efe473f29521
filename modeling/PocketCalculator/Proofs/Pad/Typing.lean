import Mathlib.Tactic.Common
import PocketCalculator.Proofs.Display.Shape
import PocketCalculator.Proofs.Expression.Flat
import PocketCalculator.Proofs.Pad.Gap

/-!
# The value of what was typed

A line that was typed is read as the numbers and operators that stand on it, whether or not their
spaces are all there. It is refused only if there is a gap on it.

## Main definitions

* `Pad.ShowsValue` — the pad shows the value of a line.

## Main results

* `Tape.exists_operands` — a line without a gap has the tokens of its numbers and operators.
* `Pad.equals_of_typed` — what `=` shows for a line that was typed.
-/

namespace PocketCalculator

/-! ## Lines without a gap -/

/-- The operator of a joint, if it is still there. -/
def Joint.op? : Joint → Option Operator
  | gap => none
  | half op => some op
  | full op => some op

/-- The sign of an operator becomes its token. -/
lemma exists_toAscii_glyph (op : Operator) :
    ∃ c : Char, toAscii [op.glyph] = [c] ∧ Token.isNumeric c = false ∧ c ≠ ' ' ∧
      Token.ofSymbol c = op.token := by
  cases op with
  | add => exact ⟨'+', by decide⟩
  | sub => exact ⟨'-', by decide⟩
  | mul => exact ⟨'*', by decide⟩
  | div => exact ⟨'/', by decide⟩

/-- A joint has one token, whether or not its second space is there.

**Proof sketch.** The spaces of the joint have no tokens, and the sign of its operator becomes the
token of the operator. -/
lemma scan_joint {j : Joint} {op : Operator} (h : j.op? = some op) (cs : List Char) :
    Token.scan (toAscii j.text ++ cs) = op.token :: Token.scan cs := by
  obtain ⟨c, hc, hnum, hne, htoken⟩ := exists_toAscii_glyph op
  cases j with
  | gap => simp [Joint.op?] at h
  | half op' =>
    obtain rfl := Option.some.inj h
    rw [show (Joint.half op').text = [' '] ++ [op'.glyph] from rfl, toAscii_append, hc,
      List.append_assoc, List.singleton_append]
    rw [show toAscii [' '] = [' '] from rfl, List.singleton_append, Token.scan_space,
      Token.scan_symbol hnum hne, htoken]
  | full op' =>
    obtain rfl := Option.some.inj h
    rw [show (Joint.full op').text = [' '] ++ ([op'.glyph] ++ [' ']) from rfl, toAscii_append,
      toAscii_append, hc, List.append_assoc, List.append_assoc, List.singleton_append]
    rw [show toAscii [' '] = [' '] from rfl, List.singleton_append, List.singleton_append,
      Token.scan_space, Token.scan_symbol hnum hne, Token.scan_space, htoken]

/-- A joint without its spaces is the sign of its operator. -/
lemma filter_joint {j : Joint} {op : Operator} (h : j.op? = some op) :
    j.text.filter (· != ' ') = [op.glyph] := by
  have hglyph : (op.glyph != ' ') = true := by
    simpa using (Tape.glyph_not_numeric op).2.2
  cases j with
  | gap => simp [Joint.op?] at h
  | half op' =>
    obtain rfl := Option.some.inj h
    simp [Joint.text, hglyph]
  | full op' =>
    obtain rfl := Option.some.inj h
    simp [Joint.text, hglyph]

namespace Tape

/-- **The numbers and operators of a line**: without a gap, the line has nothing else on it but
spaces, and its tokens are theirs.

**Proof sketch.** Induction on the finished numbers. Each of them is scanned by itself, as a space
follows it, and its joint gives the operator in front of the number after it. -/
theorem exists_operands {done : List (List Char × Joint)} {current : List Char}
    (hdone : ∀ x ∈ done, IsTyped x.1) (hcur : IsTyped current) (hgap : ∀ x ∈ done, x.2 ≠ .gap) :
    ∃ (n : List Char) (rest : List (Operator × List Char)),
      IsTyped n ∧ (∀ x ∈ rest, IsTyped x.2) ∧
      (doneText done ++ current).filter (· != ' ') =
        n ++ rest.flatMap (fun x => x.1.glyph :: x.2) ∧
      Token.scan (toAscii (doneText done ++ current)) =
        Token.ofRun n ++ rest.flatMap fun x => x.1.token :: Token.ofRun x.2 := by
  induction done with
  | nil =>
    refine ⟨current, [], hcur, by simp, ?_, ?_⟩
    · rw [doneText, List.flatMap_nil, List.nil_append, hcur.filter, List.flatMap_nil,
        List.append_nil]
    · have hscan : Token.scan (current ++ []) = Token.ofRun current ++ Token.scan [] :=
        Token.scan_ofRun hcur.isEntry.numeric (by simp)
      rw [List.append_nil] at hscan
      rw [doneText, List.flatMap_nil, List.nil_append, toAscii_of_numeric hcur.isEntry.numeric,
        hscan, Token.scan_nil, List.flatMap_nil]
  | cons x done ih =>
    obtain ⟨m, j⟩ := x
    rw [List.forall_mem_cons] at hdone hgap
    obtain ⟨n, rest, hn, hrest, hfilter, hscan⟩ := ih hdone.2 hgap.2
    have hm : IsTyped m := hdone.1
    obtain ⟨op, hop⟩ : ∃ op, j.op? = some op := by
      cases j with
      | gap => exact absurd rfl hgap.1
      | half op => exact ⟨op, rfl⟩
      | full op => exact ⟨op, rfl⟩
    have htext : doneText ((m, j) :: done) ++ current =
        m ++ (j.text ++ (doneText done ++ current)) := by
      simp [doneText]
    have hhead : ∀ c ∈ (toAscii j.text ++ toAscii (doneText done ++ current)).head?,
        Token.isNumeric c = false := by
      intro c hc
      obtain rfl : ' ' = c := by
        cases j <;> simpa [toAscii, Joint.text] using hc
      rfl
    refine ⟨m, (op, n) :: rest, hm, List.forall_mem_cons.mpr ⟨hn, hrest⟩, ?_, ?_⟩
    · rw [htext, List.filter_append, List.filter_append, hm.filter, filter_joint hop, hfilter,
        List.flatMap_cons]
      rfl
    · rw [htext, toAscii_append, toAscii_append, toAscii_of_numeric hm.isEntry.numeric,
        Token.scan_ofRun hm.isEntry.numeric hhead, scan_joint hop, hscan, List.flatMap_cons]
      rfl

end Tape

/-- A finished number is an operand. -/
lemma IsTyped.derives {n : List Char} (h : IsTyped n) :
    Derives .operand (Token.ofRun n) (.number (Decimal.ofRun n)) := by
  cases n with
  | nil => exact absurd h.endsWithDigit (by decide)
  | cons c more => exact derives_number h.isNumber

/-- The value of a text that has the tokens of an operand, and of operators and finished numbers
after it.

**Proof sketch.** Finished numbers are operands of one level each, so that the tokens are those of a
flat expression, and its value is the total of the values of its operands
(`Flat.evaluate_eq_ok`). -/
lemma evaluate_of_first {text : List Char} {ts : List Token} {e : Expr}
    {rest : List (Operator × List Char)} (he : Derives .operand ts e)
    (hheight : e.height ≤ nestingLimit) (hrest : ∀ x ∈ rest, IsTyped x.2)
    (hscan : Token.scan text = ts ++ rest.flatMap fun x => x.1.token :: Token.ofRun x.2) :
    evaluate text = .ok (Flat.total Operator.apply e.eval
      (rest.map fun x => (x.1, (Decimal.ofRun x.2).toFloat))) := by
  have htokens : rest.flatMap (fun x => x.1.token :: Token.ofRun x.2) =
      Flat.tokens (rest.map fun x => (x.1, Token.ofRun x.2, .number (Decimal.ofRun x.2))) := by
    rw [Flat.tokens, List.flatMap_map]
  rw [htokens] at hscan
  have hoperands : ∀ x ∈ rest.map fun x => (x.1, Token.ofRun x.2, Expr.number (Decimal.ofRun x.2)),
      Derives .operand x.2.1 x.2.2 ∧ x.2.2.height ≤ nestingLimit := by
    intro x hx
    obtain ⟨y, hy, rfl⟩ := List.mem_map.mp hx
    exact ⟨(hrest y hy).derives, show 1 ≤ 256 by decide⟩
  have hvalue := Flat.evaluate_eq_ok hscan (.operand he) (fun x hx => (hoperands x hx).1)
    hheight fun x hx => (hoperands x hx).2
  rw [hvalue, List.map_map]
  rfl

/-- The value of a text that has the tokens of finished numbers and operators. -/
lemma evaluate_of_operands {text n : List Char} {rest : List (Operator × List Char)}
    (hn : IsTyped n) (hrest : ∀ x ∈ rest, IsTyped x.2)
    (hscan : Token.scan text =
      Token.ofRun n ++ rest.flatMap fun x => x.1.token :: Token.ofRun x.2) :
    evaluate text = .ok (Flat.total Operator.apply (Decimal.ofRun n).toFloat
      (rest.map fun x => (x.1, (Decimal.ofRun x.2).toFloat))) :=
  evaluate_of_first hn.derives (show 1 ≤ 256 by decide) hrest hscan

/-! ## What is shown -/

/-- No result reads like an error: there is no `r` in any. -/
lemma display_ne_errorText (v : Float) : display v ≠ Pad.errorText := by
  intro h
  have hr : 'r' ∈ display v := by
    rw [h]
    decide
  rcases mem_display hr with hd | hd <;> exact absurd hd (by decide)

namespace Pad

/-- Besides its spaces, the line has a number and then operators and numbers on it, and the pad
shows the value that they have if products are worked out before sums and both from the left. -/
def ShowsValue (line : List Char) (p : Pad) : Prop :=
  ∃ (n : List Char) (v : Float) (rest : List (Operator × List Char × Float)),
    IsTyped n ∧ Numeral.read n = .ok v ∧
    (∀ x ∈ rest, IsTyped x.2.1 ∧ Numeral.read x.2.1 = .ok x.2.2) ∧
    line.filter (· != ' ') = n ++ rest.flatMap (fun x => x.1.glyph :: x.2.1) ∧
    p = ⟨display (Flat.total Operator.apply v (rest.map fun x => (x.1, x.2.2))), true, false, true⟩

/-- For a line without a gap, `=` shows the value of its numbers and operators.

**Proof sketch.** The joints of the tape all have their operators, as a missing one would be a gap;
so the tokens of the line are a flat expression. -/
lemma press_equals_of_not_hasGap (t : Tape) (hready : t.pad.ready = true)
    (hgap : ¬ HasGap t.text) : ShowsValue t.text (t.pad.press .equals) := by
  rw [Tape.ready_pad] at hready
  have hcur : IsTyped t.current := t.entry.isTyped hready
  have hjoints : ∀ x ∈ t.done, x.2 ≠ .gap := by
    rintro ⟨n, j⟩ hx rfl
    exact hgap (Tape.hasGap_of_mem t.typed hcur hx)
  obtain ⟨n, rest, hn, hrest, hfilter, hscan⟩ := Tape.exists_operands t.typed hcur hjoints
  have hvalue := evaluate_of_operands hn hrest hscan
  refine ⟨n, (Decimal.ofRun n).toFloat,
    rest.map fun x => (x.1, x.2, (Decimal.ofRun x.2).toFloat), hn, hn.isNumber.read, ?_, ?_, ?_⟩
  · intro x hx
    obtain ⟨y, hy, rfl⟩ := List.mem_map.mp hx
    exact ⟨hrest y hy, (hrest y hy).isNumber.read⟩
  · rw [List.flatMap_map]
    exact hfilter
  · have hready' : t.pad.ready = true := by rwa [Tape.ready_pad]
    rcases press_equals_cases hready' with ⟨w, hw, hpress⟩ | ⟨hno, -⟩
    · have hw' : evaluate (toAscii (Tape.doneText t.done ++ t.current)) = .ok w := hw
      rw [hvalue, Except.ok.injEq] at hw'
      rw [hpress, ← hw', List.map_map]
      simp only [Tape.pad, hready]
      rfl
    · exact absurd hvalue (hno _)

/-- **What was typed is what is computed.** After any keys that only edit the line, the pad shows no
error. Where a number has just been entered, `=` shows the error if there is a gap on the line, and
otherwise the value of the numbers and operators that the line has besides its spaces, products
before sums and both from the left; where none has, it does nothing. A gap can only come from an
operator that was taken off but for its first space.

**Proof sketch.** The pad is over a tape (`Tape.exists_pressAll`), whose facts say whether its last
number is finished. With a gap two numbers stand side by side and the line is refused
(`evaluate_ne_ok_of_hasGap`), and where the gap comes from is `splitsOperator_of_hasGap`. Without
one, `press_equals_of_not_hasGap` gives the value, and no value is shown by the text of the
error. -/
theorem equals_of_typed {keys : List Key} (hkeys : ∀ k ∈ keys, k.isTyping = true) {p : Pad}
    (hp : cleared.pressAll keys = p) :
    p.failed = false ∧ (p.numeric = false → p.press .equals = p) ∧
    (HasGap p.screen → SplitsOperator keys) ∧
    (p.numeric = true →
      ((p.press .equals).screen = errorText ↔ HasGap p.screen) ∧
      ((p.press .equals).failed = true ↔ HasGap p.screen) ∧
      (¬ HasGap p.screen → ShowsValue p.screen (p.press .equals))) := by
  obtain ⟨t, ht⟩ := Tape.exists_pressAll hkeys
  obtain rfl : t.pad = p := ht.symm.trans hp
  refine ⟨rfl, fun hnum => ?_, fun hgap => splitsOperator_of_hasGap hkeys (by rwa [ht]),
    fun hnum => ?_⟩
  · refine press_of_not_ready rfl ?_
    rw [ready, hnum, Bool.false_and]
  · have hready : t.pad.ready = true := by
      rw [ready, hnum]
      rfl
    by_cases hgap : HasGap t.pad.screen
    · have hfail : t.pad.press .equals = t.pad.fail := by
        rcases press_equals_cases hready with ⟨v, hv, -⟩ | ⟨-, hpress⟩
        · exact absurd hv (evaluate_ne_ok_of_hasGap hgap v)
        · exact hpress
      rw [hfail]
      exact ⟨⟨fun _ => hgap, fun _ => rfl⟩, ⟨fun _ => hgap, fun _ => rfl⟩, fun h => absurd hgap h⟩
    · have hvalue := press_equals_of_not_hasGap t hready hgap
      obtain ⟨n, v, rest, -, -, -, -, hpress⟩ := id hvalue
      refine ⟨⟨fun h => ?_, fun h => absurd h hgap⟩, ⟨fun h => ?_, fun h => absurd h hgap⟩,
        fun _ => hvalue⟩
      · rw [hpress] at h
        exact absurd h (display_ne_errorText _)
      · rw [hpress] at h
        exact absurd h Bool.false_ne_true

/-- The general result for `12.5 ×3 + 1`, where the space after the first operator was taken off:
`=` shows `38.5`. -/
theorem equals_of_typed_half_operator :
    let keys : List Key := [.digit 1, .digit 2, .point, .digit 5, .operator .mul, .delete, .digit 3,
      .operator .add, .digit 1]
    (∀ k ∈ keys, k.isTyping = true) ∧ (cleared.pressAll keys).numeric = true ∧
      ¬ HasGap (cleared.pressAll keys).screen ∧
      ShowsValue "12.5 ×3 + 1".toList ((cleared.pressAll keys).press .equals) ∧
      ((cleared.pressAll keys).press .equals).screen = "38.5".toList := by
  intro keys
  have hkeys : ∀ k ∈ keys, k.isTyping = true := by decide
  have hnum : (cleared.pressAll keys).numeric = true := by decide
  obtain ⟨-, -, -, hvalue⟩ := equals_of_typed hkeys rfl
  obtain ⟨-, hfailed, hshown⟩ := hvalue hnum
  have hgap : ¬ HasGap (cleared.pressAll keys).screen := by
    intro hgap
    exact absurd (hfailed.mpr hgap) (by decide +kernel)
  exact ⟨hkeys, hnum, hgap, hshown hgap, by decide +kernel⟩

end Pad

end PocketCalculator
