import Mathlib.Data.List.Induction
import Mathlib.Tactic.Common
import PocketCalculator.Proofs.Pad.Tape

/-!
# Taking back what was typed

The keys that type keep the facts of the pad up to date as they go, and `DEL` reads them off what is
left of the screen. While nothing is computed the two agree, in the middle of an operator too. So
the screen is all there is to know, and as many `DEL` as a key has typed characters take the key
back.

## Main definitions

* `Pad.ofScreen` — the pad whose facts are read off its screen.

## Main results

* `Pad.pressAll_eq_ofScreen` — typing keeps the facts that the screen shows.
* `Pad.pressAll_delete` — the effect of `DEL` pressed several times.
* `Pad.delete_undoes` — `DEL` takes back what a key has typed.
-/

namespace PocketCalculator

namespace Pad

/-! ## The facts of a screen -/

/-- A text ends with a digit exactly if its last character is one. -/
lemma endsWithDigit_iff {s : List Char} :
    endsWithDigit s = true ↔
      ∃ (front : List Char) (c : Char), s = front ++ [c] ∧ c.isDigit = true := by
  constructor
  · intro h
    rcases List.eq_nil_or_concat' s with rfl | ⟨front, c, rfl⟩
    · exact absurd h (by decide)
    · rw [endsWithDigit_append (List.cons_ne_nil _ _)] at h
      exact ⟨front, c, rfl, h⟩
  · rintro ⟨front, c, rfl, hc⟩
    rw [endsWithDigit_append (List.cons_ne_nil _ _)]
    exact hc

/-- The current number is the end of the text. -/
lemma exists_append_currentNumber (s : List Char) : ∃ front, s = front ++ currentNumber s := by
  refine ⟨(s.reverse.dropWhile (· != ' ')).reverse, ?_⟩
  rw [currentNumber, ← List.reverse_append, List.takeWhile_append_dropWhile, List.reverse_reverse]

/-- There is no space in the current number. -/
lemma space_not_mem_currentNumber (s : List Char) : ' ' ∉ currentNumber s := by
  intro hmem
  have hspace := List.mem_takeWhile_imp (List.mem_reverse.mp hmem)
  exact absurd hspace (by decide)

/-- The current number has a point exactly if some point of the text has no space after it.

**Proof sketch.** The current number is the end of the text behind its last space. A point in it has
only characters of it behind it, and a point with no space behind it is in it, as the current number
goes back to the last space. -/
lemma contains_currentNumber_iff {s : List Char} :
    (currentNumber s).contains '.' = true ↔
      ∃ before after : List Char, s = before ++ '.' :: after ∧ ' ' ∉ after := by
  rw [List.contains_iff_mem]
  constructor
  · intro hmem
    obtain ⟨front, hfront⟩ := exists_append_currentNumber s
    have hspace := space_not_mem_currentNumber s
    obtain ⟨before, after, hnumber⟩ := List.append_of_mem hmem
    rw [hnumber] at hfront hspace
    refine ⟨front ++ before, after, by rw [hfront, List.append_assoc], fun hafter => hspace ?_⟩
    exact List.mem_append_right _ (List.mem_cons_of_mem _ hafter)
  · rintro ⟨before, after, rfl, hspace⟩
    rw [currentNumber_append before (List.not_mem_cons_of_ne_of_not_mem (by decide) hspace)]
    exact List.mem_append_right _ List.mem_cons_self

/-- The pad whose facts are read off its screen. -/
def ofScreen (screen : List Char) : Pad where
  screen
  numeric := endsWithDigit screen
  failed := false
  pointed := (currentNumber screen).contains '.'

/-- The pad over a tape has the facts of its screen. -/
lemma ofScreen_text (t : Tape) : ofScreen t.text = t.pad := by
  rw [ofScreen, Tape.endsWithDigit_text, Tape.currentNumber_text]
  rfl

variable {keys : List Key} {p : Pad}

/-- **Typing keeps the facts that the screen shows**, whether a key has noted them or `DEL` has read
them off the screen.

**Proof sketch.** The pad is over a tape (`Tape.exists_pressAll`), and the facts of a tape can be
read off its text (`ofScreen_text`). -/
theorem pressAll_eq_ofScreen (hkeys : ∀ k ∈ keys, k.isTyping = true) :
    cleared.pressAll keys = ofScreen (cleared.pressAll keys).screen := by
  obtain ⟨t, ht⟩ := Tape.exists_pressAll hkeys
  rw [ht]
  exact (ofScreen_text t).symm

/-! ## Taking characters off -/

/-- Without an error, `DEL` leaves the pad with the facts of the screen that is left. -/
lemma press_delete (hp : p.failed = false) (hne : p.screen ≠ []) :
    p.press .delete = ofScreen p.screen.dropLast := by
  rw [press, delete, if_neg (by simpa using hne), hp]
  rfl

/-- **As many** `DEL` **as the end of the screen has characters** take this end off.

**Proof sketch.** Induction on what is taken off, its last character first. Each `DEL` reads the
facts anew, so that the last one leaves those of what is left. -/
theorem pressAll_delete (hp : p.failed = false) {front text : List Char} (hne : text ≠ [])
    (hscreen : p.screen = front ++ text) :
    p.pressAll (List.replicate text.length .delete) = ofScreen front := by
  induction text using List.reverseRecOn generalizing p with
  | nil => exact absurd rfl hne
  | append_singleton text c ih =>
    have hpress : p.press .delete = ofScreen (front ++ text) := by
      rw [press_delete hp (by simp [hscreen]), hscreen, ← List.append_assoc,
        List.dropLast_concat]
    rw [List.length_append, List.length_singleton, List.replicate_succ, pressAll_cons, hpress]
    by_cases htext : text = []
    · rw [htext, List.append_nil]
      rfl
    · exact ih rfl htext rfl

/-- A key that has added a text to the screen is taken back by as many `DEL` as the text has
characters. -/
lemma pressAll_delete_of_press {k : Key} (text : List Char) (hp : p = ofScreen p.screen)
    (hfailed : (p.press k).failed = false) (hne : text ≠ [])
    (hscreen : (p.press k).screen = p.screen ++ text) :
    p.pressAll (k :: List.replicate text.length .delete) = p := by
  rw [pressAll_cons, pressAll_delete hfailed hne hscreen, ← hp]

/-- **Taking back what was typed.** After any keys that only edit the line, the screen determines
the state: no error is shown, a number has just been entered exactly if the last character is a
digit, and the current number has its point exactly if a point stands behind the last space. So
`DEL` takes a digit back, `DEL` twice the key `00`, `DEL` once a point that was accepted, and `DEL`
three times an operator that was.

**Proof sketch.** The facts are those that the screen shows (`pressAll_eq_ofScreen`), and what they
say about the screen are `endsWithDigit_iff` and `contains_currentNumber_iff`. A key that has added
a text is taken back by as many `DEL` as this has characters (`pressAll_delete_of_press`): one, two,
one and three. A point or an operator that had an effect was added. -/
theorem delete_undoes (hkeys : ∀ k ∈ keys, k.isTyping = true) (hp : cleared.pressAll keys = p) :
    (p.failed = false ∧
      (p.numeric = true ↔
        ∃ (front : List Char) (c : Char), p.screen = front ++ [c] ∧ c.isDigit = true) ∧
      (p.pointed = true ↔
        ∃ before after : List Char, p.screen = before ++ '.' :: after ∧ ' ' ∉ after) ∧
      ∀ keys' : List Key, (∀ k ∈ keys', k.isTyping = true) →
        (cleared.pressAll keys').screen = p.screen → cleared.pressAll keys' = p) ∧
    (∀ d, p.pressAll [.digit d, .delete] = p) ∧
    p.pressAll [.doubleZero, .delete, .delete] = p ∧
    (p.press .point ≠ p → p.pressAll [.point, .delete] = p) ∧
    ∀ op, p.press (.operator op) ≠ p →
      p.pressAll [.operator op, .delete, .delete, .delete] = p := by
  have hfacts : p = ofScreen p.screen := hp ▸ pressAll_eq_ofScreen hkeys
  have hfailed : p.failed = false := by rw [hfacts]; rfl
  refine ⟨⟨hfailed, ?_, ?_, fun keys' hkeys' hscreen => ?_⟩, fun d => ?_, ?_, fun h => ?_,
    fun op h => ?_⟩
  · rw [hfacts]
    exact endsWithDigit_iff
  · rw [hfacts]
    exact contains_currentNumber_iff
  · rw [pressAll_eq_ofScreen hkeys', hscreen, ← hfacts]
  · have hpress := press_digits hfailed (show (Key.digit d).digits? = some _ from rfl)
    exact pressAll_delete_of_press [_] hfacts (by rw [hpress]) (List.cons_ne_nil _ _)
      (by rw [hpress])
  · have hpress := press_digits hfailed (show Key.doubleZero.digits? = some _ from rfl)
    exact pressAll_delete_of_press ['0', '0'] hfacts (by rw [hpress]) (List.cons_ne_nil _ _)
      (by rw [hpress])
  · have hpress := (press_point_cases p).resolve_left h
    exact pressAll_delete_of_press ['.'] hfacts (by rw [hpress]; exact hfailed)
      (List.cons_ne_nil _ _) (by rw [hpress])
  · have hpress := (press_operator_cases p op).resolve_left h
    exact pressAll_delete_of_press [' ', op.glyph, ' '] hfacts
      (by rw [hpress]; exact hfailed) (List.cons_ne_nil _ _) (by rw [hpress])

/-- The general result for `12.5 ×3`, where the space after the operator was taken off. -/
theorem delete_undoes_half_operator :
    let keys : List Key := [.digit 1, .digit 2, .point, .digit 5, .operator .mul, .delete, .digit 3]
    let keys' : List Key := [.doubleZero, .clear] ++ keys ++ [.operator .add, .delete, .delete,
      .delete]
    let p := cleared.pressAll keys
    (∀ k ∈ keys, k.isTyping = true) ∧ (∀ k ∈ keys', k.isTyping = true) ∧
    p = ⟨"12.5 ×3".toList, true, false, false⟩ ∧ cleared.pressAll keys' = p ∧
    p.pressAll [.digit 7, .delete] = p ∧
    (p.press .point ≠ p ∧ p.pressAll [.point, .delete] = p) ∧
    p.press (.operator .div) ≠ p ∧
      p.pressAll [.operator .div, .delete, .delete, .delete] = p := by
  intro keys keys' p
  have hkeys : ∀ k ∈ keys, k.isTyping = true := by decide
  have hkeys' : ∀ k ∈ keys', k.isTyping = true := by decide
  have hpoint : p.press .point ≠ p := by decide
  have hoperator : p.press (.operator .div) ≠ p := by decide
  obtain ⟨⟨-, -, -, hsame⟩, hdigit, -, hundo, hundo'⟩ := delete_undoes hkeys rfl
  exact ⟨hkeys, hkeys', by decide, hsame keys' hkeys' (by decide), hdigit 7,
    ⟨hpoint, hundo hpoint⟩, hoperator, hundo' .div hoperator⟩

end Pad

end PocketCalculator
