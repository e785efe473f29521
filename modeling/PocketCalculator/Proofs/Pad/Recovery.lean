import Mathlib.Data.List.Basic
import Mathlib.Data.List.Induction
import Mathlib.Tactic.Common
import PocketCalculator.Proofs.Pad.Keys

/-!
# Leaving an error

A digit takes an error away and begins a new line. It is meant to do so as on a cleared pad, but one
fact outlives the error: whether the number that stood at the end of the refused line had its point.
If it had, the new number cannot get one, unless a character of the error has been taken off before,
which makes the pad read its facts again.

## Main definitions

* `Pad.KeepsPoint` — the error on the screen came up over a number with a point noted, and nothing
  has been taken off since.

## Main results

* `Pad.failed_invariant` — the facts of a pad that shows an error.
* `Pad.recover_iff` — when a digit after an error is as good as `C` and the digit.
-/

namespace PocketCalculator.Pad

/-! ## Errors -/

/-- The keys had led to a pad that noted a point and showed no error; the next one put the error on
the screen, and all that followed it have no effect on an error. -/
def KeepsPoint (keys : List Key) : Prop :=
  ∃ (before after : List Key) (k : Key), keys = before ++ k :: after ∧
    (cleared.pressAll before).failed = false ∧ (cleared.pressAll before).pointed = true ∧
    ((cleared.pressAll before).press k).failed = true ∧ ∀ l ∈ after, l.needsNumber = true

/-- Keys that need a number have no effect on an error.

**Proof sketch.** Induction on the keys; none of them has an effect on an error. -/
lemma pressAll_of_failed {p : Pad} (hp : p.failed = true) {ks : List Key}
    (hks : ∀ k ∈ ks, k.needsNumber = true) : p.pressAll ks = p := by
  induction ks with
  | nil => rfl
  | cons k ks ih =>
    rw [List.forall_mem_cons] at hks
    rw [pressAll_cons, press_of_failed hp hks.1, ih hks.2]

/-- A key that brings an error up does so by refusing a calculation.

**Proof sketch.** Key by key. The keys that compute show a value or refuse the calculation, and the
others leave it as it was whether an error is shown, or leave none. -/
lemma press_eq_fail {p : Pad} (hp : p.failed = false) {k : Key} (hk : (p.press k).failed = true) :
    p.press k = p.fail := by
  have hnot : p.press k ≠ p := by
    intro h
    rw [h, hp] at hk
    exact absurd hk (by decide)
  have hready : k.needsNumber = true → p.ready = true := by
    intro hneeds
    by_contra hready
    exact hnot (press_of_not_ready hneeds (by simpa using hready))
  cases k with
  | digit d => simp [press, typeDigits] at hk
  | doubleZero => simp [press, typeDigits] at hk
  | point =>
    rcases press_point_cases p with hpress | hpress <;> simp [hpress, hp] at hk
  | operator op =>
    rcases press_operator_cases p op with hpress | hpress <;> simp [hpress, hp] at hk
  | equals =>
    rcases press_equals_cases (hready rfl) with ⟨v, -, hpress⟩ | ⟨-, hpress⟩
    · rw [hpress] at hk
      simp [hp] at hk
    · exact hpress
  | percent =>
    rcases press_percent_cases (hready rfl) with ⟨v, -, hpress⟩ | ⟨-, hpress⟩
    · rw [hpress] at hk
      simp [hp] at hk
    · exact hpress
  | delete =>
    rw [press, delete] at hk
    split at hk <;> simp [hp] at hk
  | clear => exact absurd hk Bool.false_ne_true

/-- What is left of the error has no point: taking a character off it notes none.

**Proof sketch.** The characters that are left are letters of the word. There is no space among
them, so that they are the current number, and no point. -/
lemma pointed_delete {p : Pad} (hp : p.screen <+: errorText) (hne : p.screen ≠ []) :
    (p.press .delete).pointed = false := by
  have hmem : ∀ c ∈ p.screen.dropLast, c ∈ errorText := fun c hc =>
    hp.subset (List.dropLast_subset _ hc)
  have hspace : ' ' ∉ p.screen.dropLast := fun h => absurd (hmem _ h) (by decide)
  have hpoint : '.' ∉ p.screen.dropLast := fun h => absurd (hmem _ h) (by decide)
  have hpressed : (p.press .delete).pointed =
      (currentNumber p.screen.dropLast).contains '.' := by
    rw [press, delete, if_neg (by simpa using hne)]
  rw [hpressed, currentNumber_eq_self hspace]
  simpa using hpoint

/-- An error that kept a point is whole.

**Proof sketch.** The error comes up over the pad that noted the point, and the keys that follow
have no effect on it (`pressAll_of_failed`). -/
lemma KeepsPoint.exists_pad {keys : List Key} (h : KeepsPoint keys) :
    ∃ p : Pad, p.pointed = true ∧ cleared.pressAll keys = p.fail := by
  obtain ⟨before, after, k, rfl, hp, hpointed, hk, hafter⟩ := h
  refine ⟨cleared.pressAll before, hpointed, ?_⟩
  rw [pressAll_append, pressAll_cons, pressAll_of_failed hk hafter, press_eq_fail hp hk]

/-- A key without effect leaves the point noted. -/
lemma KeepsPoint.concat {keys : List Key} (h : KeepsPoint keys) {k : Key}
    (hk : k.needsNumber = true) : KeepsPoint (keys ++ [k]) := by
  obtain ⟨before, after, l, rfl, hp, hpointed, hl, hafter⟩ := h
  refine ⟨before, after ++ [k], l, by rw [List.append_assoc]; rfl, hp, hpointed, hl, ?_⟩
  refine List.forall_mem_append.mpr ⟨hafter, fun l hl => ?_⟩
  rw [List.mem_singleton.mp hl]
  exact hk

/-- **The facts of a pad that shows an error**: the screen has what is left of the word, and a point
is noted only if one was when the error came up and nothing has been taken off since.

**Proof sketch.** Induction on the keys, the last one first. The key that brings the error up keeps
the fact, and so does every key without effect; taking a character off reads it anew, and the other
keys take the error away. -/
theorem failed_invariant {keys : List Key} (h : (cleared.pressAll keys).failed = true) :
    (cleared.pressAll keys).screen <+: errorText ∧
      ((cleared.pressAll keys).pointed = true → KeepsPoint keys) := by
  induction keys using List.reverseRecOn with
  | nil => exact absurd h Bool.false_ne_true
  | append_singleton keys k ih =>
    rw [pressAll_concat] at h ⊢
    cases hp : (cleared.pressAll keys).failed with
    | false =>
      have hfail := press_eq_fail hp h
      refine ⟨?_, fun hpointed => ⟨keys, [], k, rfl, hp, ?_, h, by simp⟩⟩
      · rw [hfail]
        exact List.prefix_rfl
      · rw [hfail] at hpointed
        exact hpointed
    | true =>
      obtain ⟨hscreen, hkeeps⟩ := ih hp
      by_cases hneeds : k.needsNumber = true
      · rw [press_of_failed hp hneeds]
        exact ⟨hscreen, fun hpointed => (hkeeps hpointed).concat hneeds⟩
      cases k with
      | digit d => exact absurd h Bool.false_ne_true
      | doubleZero => exact absurd h Bool.false_ne_true
      | clear => exact absurd h Bool.false_ne_true
      | delete =>
        by_cases hempty : (cleared.pressAll keys).screen = []
        · -- nothing is left to be taken off, and something has been taken off before
          have hsame : (cleared.pressAll keys).press .delete = cleared.pressAll keys := by
            rw [press, delete, if_pos (by rw [hempty]; rfl)]
          rw [hsame]
          refine ⟨hscreen, fun hpointed => ?_⟩
          obtain ⟨p, -, hfail⟩ := (hkeeps hpointed).exists_pad
          rw [hfail] at hempty
          exact absurd hempty (List.cons_ne_nil _ _)
        · have hpointed := pointed_delete hscreen hempty
          have hdrop : ((cleared.pressAll keys).press .delete).screen =
              (cleared.pressAll keys).screen.dropLast := by
            rw [press, delete, if_neg (by simpa using hempty)]
          refine ⟨?_, fun h => ?_⟩
          · rw [hdrop]
            have hsub := List.dropLast_prefix (cleared.pressAll keys).screen
            exact hsub.trans hscreen
          · rw [hpointed] at h
            exact absurd h Bool.false_ne_true
      | _ => exact absurd rfl hneeds

/-! ## Digits after an error -/

/-- A digit after an error is as good as `C` and the digit, but for the point that is noted. -/
lemma press_digits_of_failed {p : Pad} (hp : p.failed = true) {k : Key} {ds : List Char}
    (hk : k.digits? = some ds) :
    p.press k = { (p.press .clear).press k with pointed := p.pointed } := by
  rw [press_of_digits? hk, press_of_digits? hk, typeDigits, typeDigits, hp]
  rfl

/-- **Leaving an error**: a digit key after an error has the same effect as `C` and then the digit
key, now and whatever follows, unless the error kept a point. After `C` and the digit key a point
can be typed. If the error kept one, the new number has none, and still a point is refused; the two
states differ in this alone.

**Proof sketch.** The two states differ by the point that is noted, and in nothing else
(`press_digits_of_failed`). By `failed_invariant` a point is noted only if the error has kept one;
then the two differ at once, and a point is refused in one of them and typed in the other. If none
is, the states are the same, and so is all that follows. -/
theorem recover_iff {keys : List Key} (hfailed : (cleared.pressAll keys).failed = true) {k : Key}
    (hk : k.digits?.isSome = true) :
    ((∀ later, ((cleared.pressAll keys).press k).pressAll later =
        (((cleared.pressAll keys).press .clear).press k).pressAll later) ↔ ¬ KeepsPoint keys) ∧
    ((((cleared.pressAll keys).press .clear).press k).press .point).screen =
      (((cleared.pressAll keys).press .clear).press k).screen ++ ['.'] ∧
    (KeepsPoint keys →
      (cleared.pressAll keys).press k =
        { ((cleared.pressAll keys).press .clear).press k with pointed := true } ∧
      ((cleared.pressAll keys).press k).press .point = (cleared.pressAll keys).press k) := by
  obtain ⟨ds, hds⟩ := Option.isSome_iff_exists.mp hk
  have hpress := press_digits_of_failed hfailed hds
  have hfresh : ((cleared.pressAll keys).press .clear).press k = ⟨ds, true, false, false⟩ := by
    rw [press_of_digits? hds]
    rfl
  have hkeeps : KeepsPoint keys → (cleared.pressAll keys).pointed = true := by
    intro h
    obtain ⟨p, hpointed, hfail⟩ := h.exists_pad
    rw [hfail]
    exact hpointed
  refine ⟨⟨fun hsame h => ?_, fun hnot later => ?_⟩, by rw [hfresh]; rfl, fun h => ?_⟩
  · have hnow := congrArg Pad.pointed (hsame [])
    rw [pressAll_nil, pressAll_nil, hpress, hkeeps h, hfresh] at hnow
    exact absurd hnow Bool.noConfusion
  · have hpointed : (cleared.pressAll keys).pointed = false := by
      by_contra hpointed
      exact hnot ((failed_invariant hfailed).2 (by simpa using hpointed))
    rw [hpress, hpointed, hfresh]
  · rw [hpress, hkeeps h, hfresh]
    exact ⟨rfl, rfl⟩

/-- The general result for `1 + 1.5`, of which `%` takes no hundredth: after the error, `7` and a
point stay `7`, and with `C` before them they make `7.`. -/
theorem recover_of_percent_refused :
    let keys : List Key := [.digit 1, .operator .add, .digit 1, .point, .digit 5, .percent]
    (cleared.pressAll keys).failed = true ∧ (Key.digit 7).digits?.isSome = true ∧
      KeepsPoint keys ∧
      ((cleared.pressAll keys).press (.digit 7)).press .point =
        (cleared.pressAll keys).press (.digit 7) ∧
      ((((cleared.pressAll keys).press .clear).press (.digit 7)).press .point).screen =
        ['7', '.'] := by
  intro keys
  have hkeeps : KeepsPoint keys :=
    ⟨[.digit 1, .operator .add, .digit 1, .point, .digit 5], [], .percent, by decide⟩
  have hfailed : (cleared.pressAll keys).failed = true := by decide
  have hdigit : (Key.digit 7).digits?.isSome = true := rfl
  obtain ⟨-, hpoint, hkept⟩ := recover_iff hfailed hdigit
  exact ⟨hfailed, hdigit, hkeeps, (hkept hkeeps).2, hpoint⟩

/-- A digit after an error is not always as good as `C` and the digit. -/
theorem recover_not_fresh :
    ¬ ∀ (keys : List Key) (k : Key), (cleared.pressAll keys).failed = true →
      k.digits?.isSome = true →
      (cleared.pressAll keys).press k = ((cleared.pressAll keys).press .clear).press k := by
  intro hfresh
  exact absurd (hfresh [.digit 1, .operator .add, .digit 1, .point, .digit 5, .percent] (.digit 7)
    (by decide) (by decide)) (by decide)

end PocketCalculator.Pad
