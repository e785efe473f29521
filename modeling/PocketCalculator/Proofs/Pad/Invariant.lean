import Mathlib.Data.List.Basic
import Mathlib.Data.List.Induction
import Mathlib.Tactic.Common
import PocketCalculator.Proofs.Display.Reading
import PocketCalculator.Proofs.Pad.Recovery

/-!
# What the facts say about the screen

The pad keeps its facts by hand, and they are no function of the screen: after `=` the word
`Infinity` is a number to go on with, and when a character has been typed and taken off again it is
none. Still the facts and the screen agree in several ways at any time, and these carry each other
through all keys.

## Main definitions

* `Pad.Consistent` — the agreement of the facts and the screen.
* `Key.leavesError` — the keys that take an error away.

## Main results

* `Pad.Consistent.press` — every key keeps the agreement.
* `Pad.pressAll_on_error` — an error stays and only loses characters until it is taken away.
* `Pad.consistent_pressAll` — both, for all that can be reached from the cleared pad.
-/

namespace PocketCalculator

/-- The keys that take an error away. -/
def Key.leavesError : Key → Bool
  | digit _ | doubleZero | clear => true
  | point | operator _ | equals | delete | percent => false

namespace Pad

variable {p : Pad}

/-- The agreement of the facts and the screen. -/
structure Consistent (p : Pad) : Prop where
  /-- An error is no number, and the screen has what is left of its word. -/
  of_failed : p.failed = true → p.numeric = false ∧ p.screen <+: errorText
  /-- Any other line that is not empty begins with a digit, with a minus sign, or with the first
  letter of a word. -/
  head : p.failed = false → ∀ c ∈ p.screen.head?, c.isDigit = true ∨ c ∈ ['-', 'I', 'N']
  /-- After a digit there is a number. -/
  of_digit : endsWithDigit p.screen = true → p.numeric = true
  /-- Where there is a number there is no error, and the line ends with a digit or is a word. -/
  of_numeric : p.numeric = true →
    p.failed = false ∧ (endsWithDigit p.screen = true ∨ IsResultWord p.screen)
  /-- On an empty line there is no number and no point. -/
  of_empty : p.screen = [] → p.numeric = false ∧ p.pointed = false

/-! ## The ends of texts -/

/-- An integer ends with a digit.

**Proof sketch.** The digits of an integer come last, behind its sign. -/
lemma endsWithDigit_integer (e : ℤ) : endsWithDigit (Display.integer e) = true := by
  have hdigits : endsWithDigit (Nat.toDigits 10 e.natAbs) = true :=
    endsWithDigit_of_digits Nat.toDigits_ne_nil fun c hc =>
      Nat.isDigit_of_mem_toDigits (by decide) (by decide) hc
  unfold Display.integer
  split
  · exact (endsWithDigit_append (s := ['-']) Nat.toDigits_ne_nil).trans hdigits
  · exact hdigits

/-- Digits around a point end with a digit.

**Proof sketch.** The digits after the point come last, or those of the power of ten, and there is
one at least in both. -/
lemma endsWithDigit_of_isPointed {text : List Char} (h : Display.IsPointed text) :
    text ≠ [] ∧ endsWithDigit text = true := by
  obtain ⟨whole, fraction, scale, rfl, -, hne, hf, hscale⟩ := h
  refine ⟨List.append_ne_nil_of_right_ne_nil _ (List.cons_ne_nil _ _), ?_⟩
  rcases hscale with rfl | ⟨e, rfl⟩
  · have htext : whole ++ '.' :: (fraction ++ []) = (whole ++ ['.']) ++ fraction := by simp
    rw [htext, endsWithDigit_append hne]
    exact endsWithDigit_of_digits hne hf
  · have hinteger := endsWithDigit_integer e
    have hne' : Display.integer e ≠ [] := by
      intro hnil
      rw [hnil] at hinteger
      exact absurd hinteger (by decide)
    have htext : whole ++ '.' :: (fraction ++ 'E' :: Display.integer e) =
        (whole ++ '.' :: (fraction ++ ['E'])) ++ Display.integer e := by simp
    rw [htext, endsWithDigit_append hne', hinteger]

/-- A result ends with a digit or is a word.

**Proof sketch.** A finite result is digits around a point, with or without a sign in front, and any
other is a word (`display_cases`). -/
theorem endsWithDigit_display (v : Float) :
    endsWithDigit (display v) = true ∨ IsResultWord (display v) := by
  rcases display_cases v with ⟨-, text, htext, hd | hd⟩ | ⟨-, hword⟩
  · rw [hd]
    exact .inl (endsWithDigit_of_isPointed htext).2
  · obtain ⟨hne, hdigit⟩ := endsWithDigit_of_isPointed htext
    rw [hd]
    exact .inl ((endsWithDigit_append (s := ['-']) hne).trans hdigit)
  · exact .inr hword

/-- What is left of the error does not end with a digit.

**Proof sketch.** Its last character is a letter of the word, if there is one. -/
lemma endsWithDigit_left_of_error {s : List Char} (h : s <+: errorText) :
    endsWithDigit s = false := by
  cases hlast : s.getLast? with
  | none =>
    rw [endsWithDigit, hlast]
    rfl
  | some c =>
    have hmem : c ∈ errorText := h.subset (List.mem_of_getLast? hlast)
    have hletters : errorText.all (!·.isDigit) = true := by decide
    rw [endsWithDigit, hlast]
    exact (Bool.not_eq_true' _).mp (List.all_eq_true.mp hletters c hmem)

/-! ## One key -/

namespace Consistent

/-- The facts of the cleared pad agree with its screen. -/
lemma cleared : Consistent cleared where
  of_failed h := absurd h Bool.false_ne_true
  head _ c hc := by simp [Pad.cleared] at hc
  of_digit h := absurd h Bool.false_ne_true
  of_numeric h := absurd h Bool.false_ne_true
  of_empty _ := ⟨rfl, rfl⟩

/-- Digits keep the agreement.

**Proof sketch.** The line ends with a digit then and there is a number. It begins as it did before,
or with the first digit if it was empty or an error. -/
lemma typeDigits (h : Consistent p) {ds : List Char} (hne : ds ≠ [])
    (hd : ∀ c ∈ ds, c.isDigit = true) : Consistent (p.typeDigits ds) := by
  have hdigit := endsWithDigit_of_digits hne hd
  have hhead : ∀ c ∈ ds.head?, c.isDigit = true ∨ c ∈ ['-', 'I', 'N'] := fun c hc =>
    .inl (hd c (List.mem_of_mem_head? hc))
  rw [Pad.typeDigits]
  cases hp : p.failed with
  | true =>
    exact {
      of_failed := fun h => absurd h Bool.false_ne_true
      head := fun _ => hhead
      of_digit := fun _ => rfl
      of_numeric := fun _ => ⟨rfl, .inl hdigit⟩
      of_empty := fun hempty => absurd hempty hne }
  | false =>
    exact {
      of_failed := fun h => absurd h Bool.false_ne_true
      head := fun _ c hc => by
        have hfirst : (p.screen ++ ds).head? = some c := hc
        rw [List.head?_append, Option.or_eq_some_iff] at hfirst
        rcases hfirst with hc | ⟨-, hc⟩
        · exact h.head hp c hc
        · exact hhead c hc
      of_digit := fun _ => rfl
      of_numeric := fun _ => ⟨rfl, .inl ((endsWithDigit_append hne).trans hdigit)⟩
      of_empty := fun hempty => absurd hempty (List.append_ne_nil_of_right_ne_nil _ hne) }

/-- What is typed after a number and ends it keeps the agreement.

**Proof sketch.** After a number the line is not empty, so it begins as before. What is added does
not end with a digit, and no number is noted. -/
lemma append (h : Consistent p) (hready : p.ready = true) {s : List Char} (hne : s ≠ [])
    (hs : endsWithDigit s = false) (pointed : Bool) :
    Consistent { p with screen := p.screen ++ s, numeric := false, pointed } := by
  obtain ⟨hnum, hp⟩ := ready_iff.mp hready
  have hscreen : p.screen ≠ [] := by
    intro hempty
    rw [(h.of_empty hempty).1] at hnum
    exact absurd hnum Bool.false_ne_true
  exact {
    of_failed := fun hfailed => absurd (hp.symm.trans hfailed) Bool.false_ne_true
    head := fun _ c hc => h.head hp c (List.head?_append_of_ne_nil _ hscreen ▸ hc)
    of_digit := fun hdigit => absurd (hs.symm.trans ((endsWithDigit_append hne).symm.trans hdigit))
      Bool.false_ne_true
    of_numeric := fun hnum => absurd hnum Bool.false_ne_true
    of_empty := fun hempty => absurd hempty (List.append_ne_nil_of_right_ne_nil _ hne) }

/-- A result agrees with the facts.

**Proof sketch.** A result begins and ends as the agreement asks (`head_display`,
`endsWithDigit_display`), and a number stays noted, as one was. -/
lemma result (hready : p.ready = true) (v : Float) (pointed : Bool) :
    Consistent { p with screen := display v, pointed } := by
  obtain ⟨hnum, hp⟩ := ready_iff.mp hready
  obtain ⟨c, cs, hcs, hc⟩ := head_display v
  exact {
    of_failed := fun hfailed => absurd (hp.symm.trans hfailed) Bool.false_ne_true
    head := fun _ d hd => by
      have hfirst : (display v).head? = some d := hd
      rw [hcs] at hfirst
      obtain rfl := Option.some.inj hfirst
      exact hc
    of_digit := fun _ => hnum
    of_numeric := fun _ => ⟨hp, endsWithDigit_display v⟩
    of_empty := fun hempty => by
      have hnil : display v = [] := hempty
      rw [hcs] at hnil
      exact absurd hnil (List.cons_ne_nil _ _) }

/-- The error agrees with the facts. -/
lemma fail : Consistent p.fail where
  of_failed _ := ⟨rfl, List.prefix_rfl⟩
  head h := absurd h.symm Bool.false_ne_true
  of_digit h := absurd h Bool.false_ne_true
  of_numeric h := absurd h Bool.false_ne_true
  of_empty h := absurd h (List.cons_ne_nil _ _)

/-- Taking a character off keeps the agreement.

**Proof sketch.** What is left begins as before. Whether it ends with a digit is read off it, which
agrees by itself, and what is left of an error does not. -/
lemma delete (h : Consistent p) : Consistent p.delete := by
  unfold Pad.delete
  split
  · exact h
  · have hfailed : p.failed = true → p.screen.dropLast <+: errorText := fun hp =>
      (List.dropLast_prefix _).trans (h.of_failed hp).2
    exact {
      of_failed := fun hp => ⟨endsWithDigit_left_of_error (hfailed hp), hfailed hp⟩
      head := fun hp c hc => h.head hp c (by
        obtain ⟨rest, hrest⟩ := List.dropLast_prefix p.screen
        rw [← hrest]
        exact List.mem_head?_append_of_mem_head? hc)
      of_digit := id
      of_numeric := fun hdigit => by
        refine ⟨?_, .inl hdigit⟩
        by_contra hp
        rw [Bool.not_eq_false] at hp
        exact absurd (hdigit.symm.trans (endsWithDigit_left_of_error (hfailed hp))) Bool.noConfusion
      of_empty := fun hempty => by
        have hnil : p.screen.dropLast = [] := hempty
        rw [hnil]
        exact ⟨rfl, rfl⟩ }

/-- **Every key** keeps the agreement of the facts and the screen.

**Proof sketch.** A key that needs a number and finds none changes nothing. All others come down to
a few changes of the screen, with a lemma for each: digits, what is typed after a number, a result,
the error, and one character less. -/
theorem press (h : Consistent p) (k : Key) : Consistent (p.press k) := by
  by_cases hnot : k.needsNumber = true ∧ p.ready = false
  · rw [press_of_not_ready hnot.1 hnot.2]
    exact h
  have hready : k.needsNumber = true → p.ready = true := fun hk => by simpa [hk] using hnot
  cases k with
  | digit d =>
    obtain ⟨hne, hd⟩ := Key.digits?_spec (k := .digit d) rfl
    exact h.typeDigits hne hd
  | doubleZero =>
    obtain ⟨hne, hd⟩ := Key.digits?_spec (k := .doubleZero) rfl
    exact h.typeDigits hne hd
  | point =>
    rcases press_point_cases p with hpress | hpress
    · rwa [hpress]
    · rw [hpress]
      exact h.append (hready rfl) (List.cons_ne_nil _ _) rfl true
  | operator op =>
    rw [Pad.press, typeOperator, if_pos (hready rfl)]
    exact h.append (hready rfl) (List.cons_ne_nil _ _) rfl false
  | equals =>
    rcases press_equals_cases (hready rfl) with ⟨v, -, hpress⟩ | ⟨-, hpress⟩
    · rw [hpress]
      exact result (hready rfl) v true
    · rw [hpress]
      exact fail
  | clear => exact cleared
  | delete => exact h.delete
  | percent =>
    rcases press_percent_cases (hready rfl) with ⟨v, -, hpress⟩ | ⟨-, hpress⟩
    · rw [hpress]
      exact result (hready rfl) v p.pointed
    · rw [hpress]
      exact fail

end Consistent

/-! ## Errors -/

/-- A key that leaves an error takes a character off it if it is the key for that, and otherwise
does nothing.

**Proof sketch.** A key that needs a number has no effect on an error, the one that takes a
character off keeps the facts that matter here, and no other key is left. -/
lemma press_on_error (hp : p.failed = true) {k : Key} (hk : k.leavesError = false) :
    (p.press k).failed = true ∧
      (p.press k).screen = if k = .delete then p.screen.dropLast else p.screen := by
  by_cases hneeds : k.needsNumber = true
  · have hne : k ≠ .delete := by
      rintro rfl
      exact absurd hneeds Bool.false_ne_true
    rw [press_of_failed hp hneeds, if_neg hne]
    exact ⟨hp, rfl⟩
  · cases k with
    | delete =>
      rw [press, Pad.delete, if_pos rfl]
      split
      · next hempty =>
        rw [List.isEmpty_iff.mp hempty]
        exact ⟨hp, rfl⟩
      · exact ⟨hp, rfl⟩
    | digit d => exact absurd hk Bool.noConfusion
    | doubleZero => exact absurd hk Bool.noConfusion
    | clear => exact absurd hk Bool.noConfusion
    | _ => exact absurd rfl hneeds

/-- **An error stays** until it is taken away, and only loses a character by each `DEL`.

**Proof sketch.** Induction on the keys, the last one first. Each `DEL` takes one character off
(`press_on_error`), as long as there is one, and the other keys none. -/
theorem pressAll_on_error (hp : p.failed = true) {keys : List Key}
    (hkeys : ∀ k ∈ keys, k.leavesError = false) :
    (p.pressAll keys).failed = true ∧
      (p.pressAll keys).screen = p.screen.take (p.screen.length - keys.count .delete) := by
  induction keys using List.reverseRecOn with
  | nil => exact ⟨hp, List.take_length.symm⟩
  | append_singleton keys k ih =>
    rw [List.forall_mem_append, List.forall_mem_singleton] at hkeys
    obtain ⟨hfailed, hscreen⟩ := ih hkeys.1
    obtain ⟨hfailed', hscreen'⟩ := press_on_error hfailed hkeys.2
    rw [pressAll_concat]
    refine ⟨hfailed', ?_⟩
    rw [hscreen', hscreen, List.count_append, List.count_singleton]
    by_cases hk : k = .delete
    · rw [if_pos hk, if_pos (by simpa using hk), List.dropLast_eq_take, List.take_take,
        List.length_take]
      congr 1
      omega
    · rw [if_neg hk, if_neg (by simpa using hk), Nat.add_zero]

/-- **The invariant of the pad.** Whatever keys are pressed on the cleared pad, its facts and its
screen agree. Once it shows an error it keeps showing it, and the screen loses a character by each
`DEL` and is otherwise the same, up to the first key that types digits or clears the pad; this key
takes the error away.

**Proof sketch.** The agreement holds on the cleared pad and is kept by every key
(`Consistent.press`), so induction on the keys, the last one first, gives the first part. The second
is `pressAll_on_error`, from the pad that shows the error on; the keys that leave an error do so at
once. -/
theorem consistent_pressAll (keys : List Key) :
    Consistent (cleared.pressAll keys) ∧
    ((cleared.pressAll keys).failed = true →
      ∀ later : List Key, (∀ k ∈ later, k.leavesError = false) →
        (cleared.pressAll (keys ++ later)).failed = true ∧
        (cleared.pressAll (keys ++ later)).screen = (cleared.pressAll keys).screen.take
          ((cleared.pressAll keys).screen.length - later.count .delete) ∧
        ∀ k : Key, k.leavesError = true →
          (cleared.pressAll (keys ++ later ++ [k])).failed = false) := by
  constructor
  · induction keys using List.reverseRecOn with
    | nil => exact .cleared
    | append_singleton keys k ih =>
      rw [pressAll_concat]
      exact ih.press k
  · intro hfailed later hlater
    obtain ⟨hstays, hscreen⟩ := pressAll_on_error hfailed hlater
    rw [pressAll_append]
    refine ⟨hstays, hscreen, fun k hk => ?_⟩
    rw [pressAll_concat]
    cases k with
    | digit d => rfl
    | doubleZero => rfl
    | clear => rfl
    | _ => exact absurd hk Bool.false_ne_true

/-- The general result for `1 + 1`, of which `%` takes no hundredth, and two `DEL` among other keys
after it. -/
theorem consistent_pressAll_error :
    let keys : List Key := [.digit 1, .operator .add, .digit 1, .percent]
    let later : List Key := [.delete, .operator .mul, .equals, .delete, .point]
    (cleared.pressAll keys).failed = true ∧ (∀ k ∈ later, k.leavesError = false) ∧
      (cleared.pressAll (keys ++ later)).failed = true ∧
      (cleared.pressAll (keys ++ later)).screen = ['E', 'r', 'r'] ∧
      (cleared.pressAll (keys ++ later ++ [.doubleZero])).failed = false := by
  intro keys later
  have hfailed : (cleared.pressAll keys).failed = true := by decide
  have hlater : ∀ k ∈ later, k.leavesError = false := by decide
  obtain ⟨-, herror⟩ := consistent_pressAll keys
  obtain ⟨hstays, hscreen, hleave⟩ := herror hfailed later hlater
  exact ⟨hfailed, hlater, hstays, hscreen.trans (by decide), hleave .doubleZero rfl⟩

end Pad

end PocketCalculator
