import Mathlib.Data.List.Induction
import Mathlib.Tactic.Common
import PocketCalculator.Proofs.Pad.Frames
import PocketCalculator.Proofs.Pad.Undo

/-!
# Typing what the screen shows

The screen records the keys that had an effect since it was last cleared: digits and points as
themselves, an operator between two spaces, the key `00` as two digits. Typed on a keyboard, the
characters of the screen press these keys again and the spaces none. So they lead to the state that
the screen was taken from.

## Main definitions

* `Pad.Replays` — the screen, typed on a cleared pad, leads to the pad that shows it.

## Main results

* `Pad.Replays.press` — this is so after any key that only adds to the line or clears it.
* `Pad.updateAll_of_isCut_text` — frames that bring a typed text press the keys of its characters.
* `Pad.replay_screen` — the screen, typed in any frames, leads to the state it was taken from.
-/

namespace PocketCalculator

/-- The digit that a digit key types stands for the same digit. -/
lemma Key.ofChar?_digitChar {d : ℕ} (h : d < 10) : ofChar? (Nat.digitChar d) = some (digit d) := by
  revert d
  decide

namespace Pad

/-! ## Typing the screen -/

/-- No error is shown, and the screen, typed on a cleared pad, leads to this pad. -/
structure Replays (p : Pad) : Prop where
  /-- No error is shown. -/
  failed : p.failed = false
  /-- The screen leads to the pad. -/
  pressAll : cleared.pressAll (p.screen.filterMap Key.ofChar?) = p

variable {p : Pad} {keys : List Key}

/-- The cleared pad has nothing to type. -/
lemma replays_cleared : Replays cleared :=
  ⟨rfl, rfl⟩

/-- What is added to the screen is typed on the pad that showed the rest of it. -/
lemma Replays.append (h : Replays p) {q : Pad} (text : List Char) (hfailed : q.failed = false)
    (hscreen : q.screen = p.screen ++ text) (hq : p.pressAll (text.filterMap Key.ofChar?) = q) :
    Replays q := by
  refine ⟨hfailed, ?_⟩
  rw [hscreen, List.filterMap_append, pressAll_append, h.pressAll, hq]

/-- **A key that only adds to the line or clears it** leaves another screen that leads to its pad.

**Proof sketch.** The characters that the key adds stand for the key itself, or for two digits `0`
if the key is `00`. They have the same effect as the key, since the pad is the same. -/
theorem Replays.press (h : Replays p) {k : Key} (hk : k.isTyping = true) (hne : k ≠ .delete) :
    Replays (p.press k) := by
  cases k with
  | digit d =>
    have hlt : d % 10 < 10 := Nat.mod_lt d (by decide)
    have hpress := press_digits h.failed (show (Key.digit d).digits? = some _ from rfl)
    refine h.append [_] (by rw [hpress]) (by rw [hpress]) ?_
    rw [List.filterMap_cons_some (Key.ofChar?_digitChar hlt), List.filterMap_nil, pressAll_cons,
      pressAll_nil, Pad.press, Pad.press, Nat.mod_mod]
  | doubleZero =>
    have hpress := press_digits h.failed (show Key.doubleZero.digits? = some _ from rfl)
    refine h.append ['0', '0'] (by rw [hpress]) (by rw [hpress]) ?_
    have hkeys : ['0', '0'].filterMap Key.ofChar? = [.digit 0, .digit 0] := by decide
    rw [hkeys, pressAll_digits h.failed (by decide), hpress, List.isEmpty_cons, Bool.not_false,
      Bool.or_true]
    rfl
  | point =>
    rcases press_point_cases p with hpress | hpress
    · rwa [hpress]
    · exact h.append ['.'] (by rw [hpress]; exact h.failed) (by rw [hpress]) rfl
  | operator op =>
    rcases press_operator_cases p op with hpress | hpress
    · rwa [hpress]
    · refine h.append [' ', op.glyph, ' '] (by rw [hpress]; exact h.failed) (by rw [hpress]) ?_
      have hspace : Key.ofChar? ' ' = none := by decide
      rw [List.filterMap_cons_none hspace, List.filterMap_cons_some (Key.ofChar?_glyph op),
        List.filterMap_cons_none hspace, List.filterMap_nil, pressAll_cons, pressAll_nil]
  | clear => exact replays_cleared
  | delete => exact absurd rfl hne
  | equals => simp [Key.isTyping] at hk
  | percent => simp [Key.isTyping] at hk

/-- So do any number of such keys on a cleared pad.

**Proof sketch.** Induction on the keys, the last one first, with `Replays.press` for each. -/
lemma replays_pressAll (hkeys : ∀ k ∈ keys, k.isTyping = true ∧ k ≠ .delete) :
    Replays (cleared.pressAll keys) := by
  induction keys using List.reverseRecOn with
  | nil => exact replays_cleared
  | append_singleton keys k ih =>
    rw [List.forall_mem_append, List.forall_mem_singleton] at hkeys
    rw [pressAll_concat]
    exact (ih hkeys.1).press hkeys.2.1 hkeys.2.2

/-! ## Typed texts in frames -/

/-- Frames that bring a typed text have no Escape.

**Proof sketch.** An Escape in a frame would be a piece of the text, and the pieces of a text are
texts. -/
lemma escapesFirst_of_isCut_text {cs : List Char} {fs : List Frame}
    (h : Frame.IsCut [.text cs] fs) : ∀ f ∈ fs, f.EscapesFirst := by
  intro f hf
  refine List.pairwise_of_forall_mem_list fun e _ e' he' hescape => ?_
  have hmem : e' ∈ (fs.flatMap Frame.events).flatMap Event.pieces := by
    refine List.mem_flatMap.mpr ⟨e', List.mem_flatMap.mpr ⟨f, hf, he'⟩, ?_⟩
    rw [hescape]
    exact List.mem_singleton_self _
  rw [h.pieces, hescape] at hmem
  simp [Event.pieces] at hmem

/-- **Frames that bring a typed text** press the keys that its characters stand for.

**Proof sketch.** Without an Escape all events are handled in order of arrival, and streams with the
same pieces have the same effect (`foldl_receive_congr`). -/
theorem updateAll_of_isCut_text (p : Pad) {cs : List Char} {fs : List Frame}
    (h : Frame.IsCut [.text cs] fs) : p.updateAll fs = p.pressAll (cs.filterMap Key.ofChar?) := by
  rw [updateAll_eq_foldl_receive p h.click (escapesFirst_of_isCut_text h),
    foldl_receive_congr p h.pieces]
  rfl

/-- **Typing what the screen shows reproduces the state.** After any keys that only add to the line
or clear it, whether or not they had an effect, the characters of the screen, typed on a cleared pad
in whatever pieces and frames, lead to the same state.

**Proof sketch.** The frames press the keys that the characters stand for
(`updateAll_of_isCut_text`), and after keys of this kind the screen leads to the pad that shows it
(`replays_pressAll`). -/
theorem replay_screen (hkeys : ∀ k ∈ keys, k.isTyping = true ∧ k ≠ .delete) {fs : List Frame}
    (hfs : Frame.IsCut [.text (cleared.pressAll keys).screen] fs) :
    cleared.updateAll fs = cleared.pressAll keys := by
  rw [updateAll_of_isCut_text cleared hfs]
  exact (replays_pressAll hkeys).pressAll

/-- The general result for `1200 × 4.`, typed with keys that had no effect before it, and in frames
that cut the text within an operator. -/
theorem replay_screen_refused :
    let keys : List Key := [.operator .add, .digit 9, .clear, .point, .digit 1, .digit 2,
      .doubleZero, .operator .mul, .operator .sub, .digit 4, .point, .point]
    let fs : List Frame := [⟨none, [.text "12".toList, .text "00 ".toList]⟩, ⟨none, []⟩,
      ⟨none, [.text "× 4".toList]⟩, ⟨none, [.text ['.']]⟩]
    (∀ k ∈ keys, k.isTyping = true ∧ k ≠ .delete) ∧
    (cleared.pressAll keys).screen = "1200 × 4.".toList ∧
    Frame.IsCut [.text (cleared.pressAll keys).screen] fs ∧
    cleared.updateAll fs = cleared.pressAll keys := by
  intro keys fs
  have hkeys : ∀ k ∈ keys, k.isTyping = true ∧ k ≠ .delete := by decide
  have hscreen : (cleared.pressAll keys).screen = "1200 × 4.".toList := by decide
  have hfs : Frame.IsCut [.text (cleared.pressAll keys).screen] fs := ⟨by decide, by decide⟩
  exact ⟨hkeys, hscreen, hfs, replay_screen hkeys hfs⟩

end Pad

end PocketCalculator
