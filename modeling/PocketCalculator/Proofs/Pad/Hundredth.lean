import Mathlib.Tactic.Common
import PocketCalculator.Proofs.Display.Reading
import PocketCalculator.Proofs.Expression.Numeral
import PocketCalculator.Proofs.Pad.Gap

/-!
# A hundredth of what was typed

While only one number is typed there is no space on the screen, and the line is a number that both
`=` and `%` can read. They read the same value, and a result is read back from its text with all its
bits; so it makes no difference for the hundredth whether the value has been shown first.

## Main results

* `Pad.space_not_mem_screen` — without operators no space is typed.
* `Pad.isTyped_screen` — without operators a number is all there is on the screen.
* `Pad.percent_agrees` — `%` and `=` agree wherever both can be used.
-/

namespace PocketCalculator

/-- A line without a space is one number that is being typed.

**Proof sketch.** Every joint has a space, so there is none, and only the last number is left. -/
lemma Tape.text_eq_current {t : Tape} (h : ' ' ∉ t.text) : t.text = t.current := by
  cases hdone : t.done with
  | nil => rw [Tape.text, hdone, Tape.doneText, List.flatMap_nil, List.nil_append]
  | cons x done =>
    refine absurd ?_ h
    rw [Tape.text, hdone, Tape.doneText, List.flatMap_cons]
    cases x.2 <;> simp [Joint.text]

namespace Pad

variable {keys : List Key}

/-- **Without operators no space is typed.**

**Proof sketch.** Induction on the keys, the last one first. Digits and a point are no spaces, and
what is left of a line without spaces has none (`screen_press_cases`). -/
theorem space_not_mem_screen
    (hkeys : ∀ k ∈ keys, k.isTyping = true ∧ ∀ op, k ≠ .operator op) :
    ' ' ∉ (cleared.pressAll keys).screen := by
  induction keys using List.reverseRecOn with
  | nil => exact List.not_mem_nil
  | append_singleton keys k ih =>
    rw [List.forall_mem_append, List.forall_mem_singleton] at hkeys
    obtain ⟨hkeys, htyping, hop⟩ := hkeys
    have hscreen := ih hkeys
    obtain ⟨t, ht⟩ := Tape.exists_pressAll fun k hk => (hkeys k hk).1
    rw [pressAll_concat]
    rw [ht] at hscreen ⊢
    rcases screen_press_cases htyping (show t.pad.failed = false from rfl) with
      ⟨ds, hds, hs⟩ | ⟨hneeds, hs⟩ | ⟨-, hs⟩ | ⟨-, hs⟩
    · rw [hs, List.mem_append, not_or]
      exact ⟨hscreen, not_mem_digits (Key.digits?_spec hds).2 rfl⟩
    · cases k with
      | point =>
        rcases press_point_cases t.pad with hpress | hpress
        · rwa [hpress]
        · rw [hpress]
          exact fun hmem => hscreen (by simpa using hmem)
      | operator op => exact absurd rfl (hop op)
      | _ => simp [Key.isTyping, Key.needsNumber] at htyping hneeds
    · rw [hs]
      exact fun hmem => hscreen (List.dropLast_subset _ hmem)
    · rw [hs]
      exact List.not_mem_nil

/-- **Without operators a number is all there is** on the screen where one has just been entered.

**Proof sketch.** The line is a tape (`Tape.exists_pressAll`) without a space, so it is its last
number, and a number has just been entered where this is finished. -/
theorem isTyped_screen (hkeys : ∀ k ∈ keys, k.isTyping = true ∧ ∀ op, k ≠ .operator op)
    (hnum : (cleared.pressAll keys).numeric = true) : IsTyped (cleared.pressAll keys).screen := by
  have hspace := space_not_mem_screen hkeys
  obtain ⟨t, ht⟩ := Tape.exists_pressAll fun k hk => (hkeys k hk).1
  rw [ht] at hspace hnum ⊢
  rw [show t.pad.screen = t.text from rfl, Tape.text_eq_current hspace]
  exact t.entry.isTyped hnum

/-- Where there is only a number on the screen, `%` shows the same after `=` as without it: the
value is read back from what `=` shows.

**Proof sketch.** The number is padded by nothing, so that `=` shows its value and `%` a hundredth
of it. The value is read back from its text with all its bits (`percent_display`), and its hundredth
is the same. -/
lemma screen_percent_of_equals {p : Pad} (hready : p.ready = true) (h : IsTyped p.screen) :
    ((p.press .equals).press .percent).screen = (p.press .percent).screen := by
  have hpadded : IsPadded none p.screen p.screen := by
    refine ⟨h.isNumber, 0, 0, ?_⟩
    rw [List.replicate_zero, List.append_nil]
    rfl
  obtain ⟨v, hvalue, hpercent⟩ : ∃ v, evaluate (toAscii p.screen) = .ok v ∧
      PocketCalculator.percent p.screen = .ok (v / 100) := by
    refine ⟨_, ?_, hpadded.percent⟩
    rw [toAscii_of_numeric h.isEntry.numeric]
    exact hpadded.evaluate
  have hshown : (p.press .equals).press .percent = ⟨display (v / 100), true, false, true⟩ := by
    rw [press_equals_of_ok hready hvalue]
    exact press_percent_of_ok (p := ⟨display v, true, false, true⟩) rfl (percent_display v)
  rw [hshown, press_percent_of_ok hready hpercent]

/-- **`%` and `=` agree wherever both can be used.** Of a text that has a value as an expression,
`%` takes a hundredth of this value, if it takes one; and the texts that have both are those of a
number with at most one sign directly in front of it and plain spaces around. If digits, points, `C`
and `DEL` have left a number on the screen, then `=` and `%` after it show the same as `%` alone.

**Proof sketch.** What both readers accept is a padded number (`exists_isPadded`), and of a padded
number both make the number with its sign (`IsPadded.evaluate`, `IsPadded.percent`). Without
operators a number is all there is on the screen (`isTyped_screen`), and there
`screen_percent_of_equals` applies. -/
theorem percent_agrees :
    (∀ (text : List Char) (v w : Float), evaluate text = .ok v →
      PocketCalculator.percent text = .ok w → w = v / 100) ∧
    (∀ text : List Char,
      ((∃ v, evaluate text = .ok v) ∧ ∃ w, PocketCalculator.percent text = .ok w) ↔
        ∃ (m n : ℕ) (sign run : List Char),
          text = List.replicate m ' ' ++ (sign ++ run) ++ List.replicate n ' ' ∧
          sign ∈ [[], ['+'], ['-']] ∧ (∀ c ∈ run, Token.isNumeric c = true) ∧
          (∃ c ∈ run, c.isDigit = true) ∧ run.count '.' ≤ 1) ∧
    (∀ keys : List Key, (∀ k ∈ keys, k.isTyping = true ∧ ∀ op, k ≠ .operator op) →
      (cleared.pressAll keys).numeric = true →
      (((cleared.pressAll keys).press .equals).press .percent).screen =
        ((cleared.pressAll keys).press .percent).screen) := by
  refine ⟨fun text v w hv hw => ?_, fun text => ⟨fun ⟨⟨v, hv⟩, w, hw⟩ => ?_, fun h => ?_⟩,
    fun keys hkeys hnum => ?_⟩
  · obtain ⟨s, run, h⟩ := exists_isPadded hv hw
    rw [h.evaluate, Except.ok.injEq] at hv
    rw [h.percent, Except.ok.injEq] at hw
    rw [← hw, hv]
  · obtain ⟨s, run, hrun, m, n, htext⟩ := exists_isPadded hv hw
    refine ⟨m, n, signText s, run, htext, ?_, hrun.numeric, hrun.digit, hrun.point⟩
    rcases s with _ | s
    · decide
    · cases s <;> decide
  · obtain ⟨m, n, sign, run, htext, hsign, hnumeric, hdigit, hpoint⟩ := h
    obtain ⟨s, rfl⟩ : ∃ s, sign = signText s := by
      simp only [List.mem_cons, List.not_mem_nil, or_false] at hsign
      rcases hsign with rfl | rfl | rfl
      · exact ⟨none, rfl⟩
      · exact ⟨some .plus, rfl⟩
      · exact ⟨some .minus, rfl⟩
    have hpadded : IsPadded s run text := ⟨⟨hnumeric, hdigit, hpoint⟩, m, n, htext⟩
    exact ⟨⟨_, hpadded.evaluate⟩, _, hpadded.percent⟩
  · obtain ⟨t, ht⟩ := Tape.exists_pressAll fun k hk => (hkeys k hk).1
    have hfailed : (cleared.pressAll keys).failed = false := by rw [ht]; rfl
    exact screen_percent_of_equals (ready_iff.mpr ⟨hnum, hfailed⟩) (isTyped_screen hkeys hnum)

/-- The general result for a text with a sign and spaces, and for a number that is too large for any
finite double. -/
theorem percent_agrees_infinite :
    let keys : List Key := .digit 5 :: List.replicate 160 .doubleZero
    (evaluate " -12.50 ".toList = .ok (-12.5) ∧
      PocketCalculator.percent " -12.50 ".toList = .ok (-0.125) ∧ (-0.125 : Float) = -12.5 / 100) ∧
    (∀ k ∈ keys, k.isTyping = true ∧ ∀ op, k ≠ .operator op) ∧
    (cleared.pressAll keys).numeric = true ∧
    ((cleared.pressAll keys).press .equals).screen = "Infinity".toList ∧
    (((cleared.pressAll keys).press .equals).press .percent).screen =
      ((cleared.pressAll keys).press .percent).screen := by
  intro keys
  have hvalue : evaluate " -12.50 ".toList = .ok (-12.5) := by decide +kernel
  have hpercent : PocketCalculator.percent " -12.50 ".toList = .ok (-0.125) := by decide +kernel
  refine ⟨⟨hvalue, hpercent, percent_agrees.1 _ _ _ hvalue hpercent⟩, ?_⟩
  have hkeys : ∀ k ∈ keys, k.isTyping = true ∧ ∀ op, k ≠ .operator op := by
    refine List.forall_mem_cons.mpr ⟨⟨rfl, fun op h => by cases h⟩, fun k hk => ?_⟩
    rw [List.eq_of_mem_replicate hk]
    exact ⟨rfl, fun op h => by cases h⟩
  have hnum : (cleared.pressAll keys).numeric = true := by decide +kernel
  exact ⟨hkeys, hnum, by decide +kernel, percent_agrees.2.2 keys hkeys hnum⟩

end Pad

end PocketCalculator
