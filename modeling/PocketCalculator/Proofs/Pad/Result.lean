import Mathlib.Tactic.Common
import PocketCalculator.Proofs.Display.Reading
import PocketCalculator.Proofs.Pad.Typing

/-!
# Results on the screen

Once `=` or `%` has computed a value, the screen shows this value and nothing else, and the pad is
ready to go on with it. Since no bit of the value is lost in its text, `%` takes a hundredth of the
very value that was computed, however often it is pressed.

## Main definitions

* `Pad.ShowsResult` — the pad just after `=` or `%` has computed a value.

## Main results

* `Pad.ShowsResult.press_percent` — one more `%` shows a hundredth of the result.
* `Pad.percent_of_result` — results are read back, and `%` never fails on one.
-/

namespace PocketCalculator.Pad

/-- The pad shows a result: `=` or `%` was pressed after a number, and there was this value. -/
inductive ShowsResult (v : Float) : Pad → Prop
  /-- The result is the value of the expression that was on the screen. -/
  | equals {q : Pad} (ready : q.ready = true) (value : evaluate (toAscii q.screen) = .ok v) :
    ShowsResult v (q.press .equals)
  /-- The result is a hundredth of the number that was on the screen. -/
  | percent {q : Pad} (ready : q.ready = true) (value : PocketCalculator.percent q.screen = .ok v) :
    ShowsResult v (q.press .percent)

namespace ShowsResult

variable {v : Float} {p : Pad}

/-- What is known of the pad where it shows a result. -/
lemma facts (h : ShowsResult v p) :
    p.screen = display v ∧ p.numeric = true ∧ p.failed = false := by
  cases h with
  | equals hready hvalue =>
    rw [press_equals_of_ok hready hvalue]
    exact ⟨rfl, rfl, rfl⟩
  | percent hready hvalue =>
    rw [press_percent_of_ok hready hvalue]
    exact ⟨rfl, rfl, rfl⟩

/-- A result is shown by its text. -/
lemma screen (h : ShowsResult v p) : p.screen = display v :=
  h.facts.1

/-- A result is a number to go on with. -/
lemma ready (h : ShowsResult v p) : p.ready = true :=
  ready_iff.mpr h.facts.2

/-- **One more** `%` has a hundredth of the result as its result, and changes nothing else.

**Proof sketch.** The screen is the text of the result, whose hundredth is that of the result
(`percent_display`), and after a result there is a number. -/
theorem press_percent (h : ShowsResult v p) :
    ShowsResult (v / 100) (p.press .percent) ∧
      p.press .percent = { p with screen := display (v / 100) } := by
  have hvalue : PocketCalculator.percent p.screen = .ok (v / 100) := by
    rw [h.screen, percent_display]
  obtain ⟨-, hnum, hfailed⟩ := h.facts
  refine ⟨.percent h.ready hvalue, ?_⟩
  rw [press_percent_of_ok h.ready hvalue, hnum, hfailed]

end ShowsResult

/-- Any number of times, `%` shows a hundredth of the result before.

**Proof sketch.** Induction on the number of keys, taking the last one off: it divides the result
before once more (`ShowsResult.press_percent`). -/
theorem pressAll_percent {v : Float} {p : Pad} (h : ShowsResult v p) (k : ℕ) :
    ShowsResult ((· / 100)^[k] v) (p.pressAll (List.replicate k .percent)) ∧
      p.pressAll (List.replicate k .percent) =
        { p with screen := display ((· / 100)^[k] v) } := by
  induction k with
  | zero =>
    refine ⟨h, ?_⟩
    rw [Function.iterate_zero, id, ← h.screen]
    rfl
  | succ k ih =>
    obtain ⟨hresult, hpad⟩ := ih
    obtain ⟨hresult', hpad'⟩ := hresult.press_percent
    rw [List.replicate_succ', pressAll_concat, Function.iterate_succ_apply']
    refine ⟨hresult', ?_⟩
    rw [hpad', hpad]

/-- **Rendering loses nothing.** A result that is not NaN is read back from its text bit for bit,
and `%` takes a hundredth of it; a hundredth of NaN is NaN. So `%` never fails where the pad shows a
result, and after any number of them the screen shows the result divided as many times by 100.

**Proof sketch.** The text of every result is read as this result (`read_display`), and NaN divided
is NaN, as there is one. What the pad shows after any number of `%` is the result of the last of
them (`pressAll_percent`), and no result reads like an error. -/
theorem percent_of_result (v : Float) :
    (Binary64.isNaN v = false → Numeral.read (display v) = .ok v ∧
      PocketCalculator.percent (display v) = .ok (v / 100)) ∧
    (Binary64.isNaN v = true → PocketCalculator.percent (display v) = .ok Binary64.nan) ∧
    ∀ p : Pad, ShowsResult v p → ∀ k : ℕ,
      (p.pressAll (List.replicate k .percent)).screen = display ((· / 100)^[k] v) ∧
      (p.pressAll (List.replicate k .percent)).screen ≠ errorText ∧
      (p.pressAll (List.replicate k .percent)).failed = false := by
  refine ⟨fun _ => ⟨read_display v, percent_display v⟩, fun hnan => ?_, fun p hp k => ?_⟩
  · have hundredth : Binary64.nan / 100 = Binary64.nan := by decide +kernel
    rw [percent_display, Binary64.eq_nan_of_isNaN hnan, hundredth]
  · obtain ⟨hscreen, -, hfailed⟩ := (pressAll_percent hp k).1.facts
    exact ⟨hscreen, hscreen ▸ display_ne_errorText _, hfailed⟩

/-- The general result for `1 ÷ 8 =` and two `%` after it. -/
theorem percent_of_result_eighth :
    let p := cleared.pressAll [.digit 1, .operator .div, .digit 8, .equals]
    Binary64.isNaN 0.125 = false ∧ ShowsResult 0.125 p ∧
      (p.pressAll [.percent, .percent]).screen = "1.25E-5".toList := by
  intro p
  have hready : (cleared.pressAll [.digit 1, .operator .div, .digit 8]).ready = true := by decide
  have hresult : ShowsResult 0.125 p := .equals hready (by decide +kernel)
  obtain ⟨-, -, hpercent⟩ := percent_of_result 0.125
  refine ⟨by decide +kernel, hresult, ?_⟩
  exact (hpercent p hresult 2).1.trans (by decide +kernel)

end PocketCalculator.Pad
