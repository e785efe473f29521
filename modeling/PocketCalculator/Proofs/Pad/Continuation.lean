import Mathlib.Tactic.Common
import PocketCalculator.Proofs.Display.Operand
import PocketCalculator.Proofs.Pad.Result

/-!
# Going on with a result

After `=` or `%` the result on the screen can be gone on with: operators and numbers that are typed
then continue it like the first number of a line. What is computed from such a line begins with the
result itself and loses no bit of it, if the result is shown plainly. Otherwise its text stands in
no expression, and `=` shows the error, even if nothing has been typed after the result.

## Main definitions

* `Pad.TypesNumber` — keys that type a number.
* `Pad.Continues` — keys that type operators and numbers.

## Main results

* `Pad.Continues.exists_line` — the screen after keys that continue a line.
* `Pad.continue_result` — what `=` shows for a result that was gone on with.
-/

namespace PocketCalculator.Pad

/-! ## Keys that continue a line -/

/-- The keys type a number: digit keys, or digit keys on both sides of the point. -/
inductive TypesNumber : List Key → List Char → Prop
  /-- A whole number is typed by digit keys. -/
  | whole {ks : List Key} (hne : ks ≠ []) (hd : ∀ k ∈ ks, k.digits?.isSome = true) :
    TypesNumber ks (Key.digitsOf ks)
  /-- A fraction is typed by digit keys, the point and digit keys again. -/
  | point {ks ls : List Key} (hne : ks ≠ []) (hd : ∀ k ∈ ks, k.digits?.isSome = true)
      (hne' : ls ≠ []) (hd' : ∀ k ∈ ls, k.digits?.isSome = true) :
    TypesNumber (ks ++ .point :: ls) (Key.digitsOf ks ++ '.' :: Key.digitsOf ls)

/-- The keys type operators, each with a number after it; the numbers have these values. -/
inductive Continues : List Key → List (Operator × Float) → Prop
  /-- Nothing is typed. -/
  | nil : Continues [] []
  /-- One operator and one number are typed, and then further ones. -/
  | cons (op : Operator) {ks keys : List Key} {n : List Char} {x : Float}
      {rest : List (Operator × Float)} (number : TypesNumber ks n) (value : Numeral.read n = .ok x)
      (more : Continues keys rest) : Continues (.operator op :: (ks ++ keys)) ((op, x) :: rest)

variable {p : Pad} {keys : List Key}

/-- What is typed is a finished number. -/
lemma TypesNumber.isTyped {n : List Char} (h : TypesNumber keys n) : IsTyped n := by
  cases h with
  | whole hne hd =>
    obtain ⟨hdigits, hne'⟩ := Key.digitsOf_spec hd
    exact .whole (hne' hne) hdigits
  | point hne hd hne' hd' =>
    obtain ⟨hdigits, hsome⟩ := Key.digitsOf_spec hd
    obtain ⟨hdigits', hsome'⟩ := Key.digitsOf_spec hd'
    exact .point (hsome hne) hdigits (hsome' hne') hdigits'

/-! ## The screen -/

/-- Where a number begins and no point is noted, the keys of a number add it to the line.

**Proof sketch.** Digits are added to the line, and the point is accepted behind them, as no other
one is noted. -/
lemma TypesNumber.pressAll {n : List Char} (h : TypesNumber keys n) (hp : p.failed = false)
    (hpoint : p.pointed = false) :
    (p.pressAll keys).screen = p.screen ++ n ∧ (p.pressAll keys).ready = true := by
  have hkeys : ∀ {q : Pad} {ks : List Key}, q.failed = false → ks ≠ [] →
      (∀ k ∈ ks, k.digits?.isSome = true) →
        q.pressAll ks = ⟨q.screen ++ Key.digitsOf ks, true, false, q.pointed⟩ := by
    intro q ks hq hne hd
    rw [pressAll_digits hq hd, List.isEmpty_eq_false_iff.mpr hne, Bool.not_false, Bool.or_true]
  cases h with
  | whole hne hd =>
    rw [hkeys hp hne hd]
    exact ⟨rfl, rfl⟩
  | @point ks ls hne hd hne' hd' =>
    have hpress : (⟨p.screen ++ Key.digitsOf ks, true, false, p.pointed⟩ : Pad).press .point =
        ⟨p.screen ++ Key.digitsOf ks ++ ['.'], false, false, true⟩ := by
      rw [hpoint]
      rfl
    rw [pressAll_append, hkeys hp hne hd, pressAll_cons, hpress, hkeys rfl hne' hd']
    refine ⟨?_, rfl⟩
    simp only [List.append_assoc, List.cons_append, List.nil_append]

/-- How the screen shows operators and numbers that continue a line. -/
def lineText (line : List (Operator × List Char)) : List Char :=
  line.flatMap fun x => (Joint.full x.1).text ++ x.2

/-- The first operator and number of a line, and what follows them. -/
lemma lineText_cons (x : Operator × List Char) (line : List (Operator × List Char)) :
    lineText (x :: line) = (Joint.full x.1).text ++ (x.2 ++ lineText line) := by
  rw [lineText, List.flatMap_cons, List.append_assoc]
  rfl

/-- **The screen after keys that continue a line**: the operators and numbers have been added, and
the line ends with a number.

**Proof sketch.** Induction on what the keys type. After a number an operator is accepted; it ends
the number, so that the next number can get its own point. -/
theorem Continues.exists_line {rest : List (Operator × Float)} (h : Continues keys rest)
    (hp : p.ready = true) :
    ∃ line : List (Operator × List Char), (∀ x ∈ line, IsTyped x.2) ∧
      (p.pressAll keys).ready = true ∧ (p.pressAll keys).screen = p.screen ++ lineText line ∧
      rest = line.map fun x => (x.1, (Decimal.ofRun x.2).toFloat) := by
  induction h generalizing p with
  | nil => exact ⟨[], by simp, hp, (List.append_nil _).symm, rfl⟩
  | @cons op ks keys n x rest hn hvalue _ ih =>
    have hfailed : p.failed = false := (ready_iff.mp hp).2
    have hop : p.press (.operator op) =
        ⟨p.screen ++ (Joint.full op).text, false, false, false⟩ := by
      rw [press, typeOperator, if_pos hp, hfailed]
      rfl
    obtain ⟨hscreen, hready⟩ := hn.pressAll (p := p.press (.operator op)) (by rw [hop])
      (by rw [hop])
    obtain ⟨line, hline, hready', hscreen', hrest⟩ := ih hready
    rw [pressAll_cons, pressAll_append]
    refine ⟨(op, n) :: line, List.forall_mem_cons.mpr ⟨hn.isTyped, hline⟩, hready', ?_, ?_⟩
    · rw [hscreen', hscreen, hop, lineText_cons, List.append_assoc, List.append_assoc]
    · have hx : x = (Decimal.ofRun n).toFloat := by
        rw [hn.isTyped.isNumber.read, Except.ok.injEq] at hvalue
        exact hvalue.symm
      rw [List.map_cons, ← hrest, hx]

/-! ## The tokens -/

/-- What continues a line has the tokens of its operators and numbers, whatever stands before it.

**Proof sketch.** Induction on the line. A space stands before each operator, so that a number in
front of it ends there. -/
lemma scan_append_line {line : List (Operator × List Char)} (hline : ∀ x ∈ line, IsTyped x.2)
    (s : List Char) :
    Token.scan (s ++ toAscii (lineText line)) =
      Token.scan s ++ line.flatMap fun x => x.1.token :: Token.ofRun x.2 := by
  induction line generalizing s with
  | nil =>
    rw [List.flatMap_nil, List.append_nil]
    exact congrArg Token.scan (List.append_nil s)
  | cons x line ih =>
    obtain ⟨op, n⟩ := x
    rw [List.forall_mem_cons] at hline
    have hn := hline.1.isEntry.numeric
    have hhead : ∀ c ∈ (toAscii (lineText line)).head?, Token.isNumeric c = false := by
      intro c hc
      cases line with
      | nil => simp [lineText, toAscii] at hc
      | cons y line =>
        obtain rfl : ' ' = c := by simpa [lineText_cons, toAscii, Joint.text] using hc
        rfl
    have hmore := ih hline.2 []
    rw [List.nil_append, Token.scan_nil, List.nil_append] at hmore
    have hjoint : Token.scan (toAscii (Joint.full op).text ++ (n ++ toAscii (lineText line))) =
        op.token :: (Token.ofRun n ++ line.flatMap fun x => x.1.token :: Token.ofRun x.2) := by
      rw [scan_joint (j := .full op) rfl, Token.scan_ofRun hn hhead, hmore]
    have hcut := Token.scan_append_cons (b := ' ') s
      (toAscii [op.glyph, ' '] ++ (n ++ toAscii (lineText line))) (by decide)
    rw [lineText_cons, toAscii_append, toAscii_append, toAscii_of_numeric hn, List.flatMap_cons]
    exact hcut.trans (congrArg (Token.scan s ++ ·) hjoint)

/-- A result is the same in an expression as on the screen. -/
lemma toAscii_display (v : Float) : toAscii (display v) = display v := by
  refine toAscii_eq_self fun c hc => ?_
  constructor <;> rintro rfl <;> rcases mem_display hc with h | h <;> exact absurd h (by decide)

/-! ## What is shown -/

/-- The text of a result that was gone on with begins with the result.

**Proof sketch.** The keys have added operators and numbers to the text of the result
(`Continues.exists_line`), and no sign of an operator stands in a result. -/
lemma ShowsResult.exists_text {v : Float} (hp : ShowsResult v p)
    {rest : List (Operator × Float)} (hkeys : Continues keys rest) :
    ∃ line : List (Operator × List Char), (∀ x ∈ line, IsTyped x.2) ∧
      (p.pressAll keys).ready = true ∧
      toAscii (p.pressAll keys).screen = display v ++ toAscii (lineText line) ∧
      rest = line.map fun x => (x.1, (Decimal.ofRun x.2).toFloat) := by
  obtain ⟨line, hline, hready, hscreen, hrest⟩ := hkeys.exists_line hp.ready
  refine ⟨line, hline, hready, ?_, hrest⟩
  rw [hscreen, toAscii_append, hp.screen, toAscii_display]

/-- A plain result is the first operand of what is typed after it.

**Proof sketch.** The text begins with an operand that has the result as its value
(`exists_operand_display`), and the tokens of what was typed come behind it (`scan_append_line`). So
the line is a flat expression, with the value of `evaluate_of_first`. -/
lemma ShowsResult.press_equals {v : Float} (hp : ShowsResult v p) (hplain : IsPlain v)
    {rest : List (Operator × Float)} (hkeys : Continues keys rest) :
    (p.pressAll keys).press .equals =
      ⟨display (Flat.total Operator.apply v rest), true, false, true⟩ := by
  obtain ⟨line, hline, hready, htext, rfl⟩ := hp.exists_text hkeys
  obtain ⟨e, hd, hheight, heval⟩ := exists_operand_display hplain
  have hvalue := evaluate_of_first hd hheight hline (scan_append_line hline (display v))
  rw [← htext, heval] at hvalue
  exact press_equals_of_ok hready hvalue

/-- **Going on with a result.** After a result, let operators and numbers be typed, or nothing, and
then `=`. If the result is shown plainly, the screen shows the value of the result and what was
typed after it, products before sums and both from the left; the result itself goes into it with all
its bits, so that `=` at once leaves the screen as it is. Otherwise the screen shows the error, as
the line is refused for a letter of the result.

**Proof sketch.** A plain result is the first operand of what follows (`ShowsResult.press_equals`),
and with nothing typed after it, it is its own value. Any other result has a letter that no
expression goes on with, so that a text which begins with it is refused whatever follows
(`evaluate_display_append`). -/
theorem continue_result {v : Float} (hp : ShowsResult v p) {rest : List (Operator × Float)}
    (hkeys : Continues keys rest) :
    (IsPlain v → (p.pressAll keys).press .equals =
      ⟨display (Flat.total Operator.apply v rest), true, false, true⟩) ∧
    (IsPlain v → (p.press .equals).screen = p.screen) ∧
    (¬ IsPlain v → ((p.pressAll keys).press .equals).screen = errorText ∧
      ((p.pressAll keys).press .equals).failed = true ∧
      ∃ c ∈ ['E', 'I', 'N'],
        evaluate (toAscii (p.pressAll keys).screen) = .error (.unexpected (some c))) := by
  refine ⟨fun hplain => hp.press_equals hplain hkeys, fun hplain => ?_, fun hplain => ?_⟩
  · have hsame := hp.press_equals hplain .nil
    rw [pressAll_nil] at hsame
    rw [hsame, hp.screen]
    rfl
  · obtain ⟨line, -, hready, htext, -⟩ := hp.exists_text hkeys
    obtain ⟨c, hc, herror⟩ := evaluate_display_append hplain (toAscii (lineText line))
    rw [← htext] at herror
    have hfail : (p.pressAll keys).press .equals = (p.pressAll keys).fail := by
      rw [press, equals, if_pos hready, herror]
    rw [hfail]
    exact ⟨rfl, rfl, c, hc, herror⟩

/-- The general result for `1 ÷ 8 =`, which is gone on with by `× 4 - 1.5`, and for `1 ÷ 0 =`, which
is not gone on with. -/
theorem continue_result_eighth :
    let p := cleared.pressAll [.digit 1, .operator .div, .digit 8, .equals]
    let keys : List Key :=
      [.operator .mul, .digit 4, .operator .sub, .digit 1, .point, .digit 5]
    let q := cleared.pressAll [.digit 1, .operator .div, .digit 0, .equals]
    (ShowsResult 0.125 p ∧ Continues keys [(.mul, 4), (.sub, 1.5)] ∧ IsPlain 0.125 ∧
      ((p.pressAll keys).press .equals).screen = "-1.0".toList) ∧
    (ShowsResult (1 / 0) q ∧ ¬ IsPlain (1 / 0) ∧ (q.press .equals).screen = errorText) := by
  intro p keys q
  have hp : ShowsResult 0.125 p := by
    have hready : (cleared.pressAll [.digit 1, .operator .div, .digit 8]).ready = true := by decide
    exact .equals hready (by decide +kernel)
  have hq : ShowsResult (1 / 0) q := by
    have hready : (cleared.pressAll [.digit 1, .operator .div, .digit 0]).ready = true := by decide
    exact .equals hready (by decide +kernel)
  have hfour : TypesNumber [.digit 4] ['4'] := .whole (by decide) (by decide)
  have hhalf : TypesNumber [.digit 1, .point, .digit 5] ['1', '.', '5'] :=
    @TypesNumber.point [.digit 1] [.digit 5] (by decide) (by decide) (by decide) (by decide)
  have hkeys : Continues keys [(.mul, 4), (.sub, 1.5)] :=
    .cons .mul hfour (by decide +kernel) (.cons .sub hhalf (by decide +kernel) .nil)
  have hplain : IsPlain 0.125 := .inr (.inr (by decide +kernel))
  have hnot : ¬ IsPlain (1 / 0) := by
    rintro (h | h | ⟨-, h⟩) <;> exact absurd h (by decide +kernel)
  have hshown := (continue_result hp hkeys).1 hplain
  have htotal : Flat.total Operator.apply 0.125 [(.mul, 4), (.sub, 1.5)] = -1 := by decide +kernel
  rw [htotal] at hshown
  refine ⟨⟨hp, hkeys, hplain, ?_⟩, hq, hnot, ((continue_result hq .nil).2.2 hnot).1⟩
  rw [hshown]
  decide +kernel

end PocketCalculator.Pad
