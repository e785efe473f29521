import Mathlib.Data.List.TakeWhile
import Mathlib.Tactic.Common
import PocketCalculator.Pad.Basic

/-!
# Keys and the facts of the pad

The keys of the pad fall into kinds: some type digits, some have an effect only after a number, some
edit the line and compute nothing. The facts that the pad remembers are read off the end of the
line, and what a key does to the line can be said by the text that it adds.

## Main definitions

* `Key.digits?`, `Key.digitsOf` — the digits that a key types, and those that several type.
* `Key.needsNumber` — the keys without effect where no number has just been entered.
* `Key.isTyping` — the keys that only edit the line.

## Main results

* `Pad.press_of_digits?`, `Pad.press_of_not_ready` — the effect of two kinds of keys.
* `Pad.pressAll_digits` — the effect of several digit keys.
* `Pad.press_point_cases`, `Pad.press_operator_cases` — a point and an operator are added, or not.
* `Pad.press_equals_cases`, `Pad.press_percent_cases` — the effect of the keys that compute.
* `Pad.screen_press_cases` — the screen after a key that only edits the line.
-/

namespace PocketCalculator

/-! ## The end of a line -/

namespace Pad

/-- The last character decides whether a text ends with a digit. -/
lemma endsWithDigit_append {s t : List Char} (h : t ≠ []) :
    endsWithDigit (s ++ t) = endsWithDigit t := by
  rw [endsWithDigit, endsWithDigit, List.getLast?_append, List.getLast?_eq_some_getLast h]
  rfl

/-- A text that ends with digits ends with a digit. -/
lemma endsWithDigit_of_digits {ds : List Char} (hne : ds ≠ [])
    (hd : ∀ c ∈ ds, c.isDigit = true) : endsWithDigit ds = true := by
  rw [endsWithDigit, List.getLast?_eq_some_getLast hne]
  exact hd _ (List.getLast_mem hne)

/-- A text without spaces goes on with the number in front of it.

**Proof sketch.** Read from the back, the text is passed over as a whole, since it has no space, and
what is in front of it is read as before. -/
lemma currentNumber_append (s : List Char) {t : List Char} (h : ' ' ∉ t) :
    currentNumber (s ++ t) = currentNumber s ++ t := by
  have hall : ∀ c ∈ t.reverse, (c != ' ') = true := by
    intro c hc
    rw [bne_iff_ne]
    rintro rfl
    exact h (List.mem_reverse.mp hc)
  rw [currentNumber, List.reverse_append, List.takeWhile_append_of_pos hall, List.reverse_append,
    List.reverse_reverse]
  rfl

/-- A text without spaces is one number. -/
lemma currentNumber_eq_self {t : List Char} (h : ' ' ∉ t) : currentNumber t = t :=
  currentNumber_append [] h

/-- What follows a space is a number of its own.

**Proof sketch.** Right after the space the current number is empty, and a text without spaces goes
on with it (`currentNumber_append`). -/
lemma currentNumber_append_space (s : List Char) {t : List Char} (h : ' ' ∉ t) :
    currentNumber (s ++ ' ' :: t) = t := by
  have hspace : currentNumber (s ++ [' ']) = [] := by simp [currentNumber]
  have happend := currentNumber_append (s ++ [' ']) h
  rwa [hspace, List.append_assoc, List.singleton_append, List.nil_append] at happend

end Pad

/-! ## Kinds of keys -/

namespace Key

/-- The digits that a key types. -/
def digits? : Key → Option (List Char)
  | digit d => some [Nat.digitChar (d % 10)]
  | doubleZero => some ['0', '0']
  | _ => none

/-- The keys that have an effect only after a number. -/
def needsNumber : Key → Bool
  | point | operator _ | equals | percent => true
  | digit _ | doubleZero | delete | clear => false

/-- The keys that edit the line and compute nothing. -/
def isTyping : Key → Bool
  | digit _ | doubleZero | point | operator _ | delete | clear => true
  | equals | percent => false

/-- A digit key types digits, one at least.

**Proof sketch.** There are ten digits that a digit key can type, and the key `00` types two of
them. -/
lemma digits?_spec {k : Key} {ds : List Char} (h : k.digits? = some ds) :
    ds ≠ [] ∧ ∀ c ∈ ds, c.isDigit = true := by
  cases k with
  | digit d =>
    obtain rfl := Option.some.inj h
    refine ⟨List.cons_ne_nil _ _, fun c hc => ?_⟩
    rw [List.mem_singleton.mp hc]
    have hlt : d % 10 < 10 := Nat.mod_lt d (by decide)
    generalize d % 10 = r at hlt
    revert r
    decide
  | doubleZero =>
    obtain rfl := Option.some.inj h
    exact ⟨List.cons_ne_nil _ _, by simp⟩
  | _ => simp [digits?] at h

/-- What the digit keys among some keys type. -/
def digitsOf (keys : List Key) : List Char :=
  keys.flatMap fun k => k.digits?.getD []

/-- Digit keys type digits, one at least.

**Proof sketch.** Each of the keys types digits, one at least (`digits?_spec`), so that there are
only digits, and some if there is a key. -/
lemma digitsOf_spec {keys : List Key} (hd : ∀ k ∈ keys, k.digits?.isSome = true) :
    (∀ c ∈ digitsOf keys, c.isDigit = true) ∧ (keys ≠ [] → digitsOf keys ≠ []) := by
  have hone : ∀ k ∈ keys, k.digits?.getD [] ≠ [] ∧ ∀ c ∈ k.digits?.getD [], c.isDigit = true := by
    intro k hk
    obtain ⟨ds, hds⟩ := Option.isSome_iff_exists.mp (hd k hk)
    rw [hds]
    exact digits?_spec hds
  constructor
  · intro c hc
    obtain ⟨k, hk, hck⟩ := List.mem_flatMap.mp hc
    exact (hone k hk).2 c hck
  · intro hne hnil
    obtain ⟨k, hk⟩ := List.exists_mem_of_ne_nil keys hne
    exact (hone k hk).1 (List.flatMap_eq_nil_iff.mp hnil k hk)

end Key

/-! ## The effect of a key -/

namespace Pad

variable {p : Pad} {k : Key}

/-- The effect of one more key at the end. -/
lemma pressAll_concat (p : Pad) (ks : List Key) (k : Key) :
    p.pressAll (ks ++ [k]) = (p.pressAll ks).press k :=
  pressAll_append p ks [k]

/-- **A digit key** types its digits. -/
theorem press_of_digits? {ds : List Char} (h : k.digits? = some ds) (p : Pad) :
    p.press k = p.typeDigits ds := by
  cases k with
  | digit d =>
    obtain rfl := Option.some.inj h
    rfl
  | doubleZero =>
    obtain rfl := Option.some.inj h
    rfl
  | _ => simp [Key.digits?] at h

/-- A digit key adds its digits to a screen without an error, after which there is a number. -/
lemma press_digits (hp : p.failed = false) {ds : List Char} (h : k.digits? = some ds) :
    p.press k = ⟨p.screen ++ ds, true, false, p.pointed⟩ := by
  rw [press_of_digits? h, typeDigits, hp]
  rfl

/-- Digit keys add their digits, after which there is a number.

**Proof sketch.** Induction on the keys. Each of them adds its digits and notes a number, and shows
no error after that. -/
lemma pressAll_digits (hp : p.failed = false) {keys : List Key}
    (hd : ∀ k ∈ keys, k.digits?.isSome = true) :
    p.pressAll keys =
      ⟨p.screen ++ Key.digitsOf keys, p.numeric || !keys.isEmpty, false, p.pointed⟩ := by
  induction keys generalizing p with
  | nil =>
    rw [pressAll_nil, show Key.digitsOf [] = [] from rfl, List.append_nil, ← hp]
    exact congrArg (fun numeric => (⟨p.screen, numeric, p.failed, p.pointed⟩ : Pad))
      (Bool.or_false p.numeric).symm
  | cons k keys ih =>
    rw [List.forall_mem_cons] at hd
    obtain ⟨ds, hds⟩ := Option.isSome_iff_exists.mp hd.1
    have hdigits : Key.digitsOf (k :: keys) = ds ++ Key.digitsOf keys := by
      rw [Key.digitsOf, List.flatMap_cons, hds]
      rfl
    rw [pressAll_cons, press_digits hp hds, ih rfl hd.2, hdigits, List.append_assoc,
      List.isEmpty_cons, Bool.not_false, Bool.or_true, Bool.true_or]

/-- A number can be used exactly if one has been entered and no error is shown. -/
lemma ready_iff : p.ready = true ↔ p.numeric = true ∧ p.failed = false := by
  rw [ready, Bool.and_eq_true, Bool.not_eq_true']

/-- **A key that needs a number** does nothing where there is none.

**Proof sketch.** All these keys look first at whether there is a number, and leave the pad as it is
if there is none. -/
theorem press_of_not_ready (hk : k.needsNumber = true) (hp : p.ready = false) :
    p.press k = p := by
  have hnot : ¬ p.ready = true := by simp [hp]
  cases k with
  | point => exact if_neg (by simp [hp])
  | operator op => exact if_neg hnot
  | equals => exact if_neg hnot
  | percent => exact if_neg hnot
  | _ => simp [Key.needsNumber] at hk

/-- A key that needs a number has no effect on an error. -/
lemma press_of_failed (hp : p.failed = true) (hk : k.needsNumber = true) : p.press k = p := by
  refine press_of_not_ready hk ?_
  rw [ready, hp, Bool.not_true, Bool.and_false]

/-- A point has no effect or is added to the line. -/
lemma press_point_cases (p : Pad) :
    p.press .point = p ∨
      p.press .point =
        { p with screen := p.screen ++ ['.'], numeric := false, pointed := true } := by
  rw [press, typePoint]
  split
  · exact .inr rfl
  · exact .inl rfl

/-- An operator has no effect or is added to the line, with a space on both sides. -/
lemma press_operator_cases (p : Pad) (op : Operator) :
    p.press (.operator op) = p ∨
      p.press (.operator op) =
        { p with
          screen := p.screen ++ [' ', op.glyph, ' ']
          numeric := false
          pointed := false } := by
  rw [press, typeOperator]
  split
  · exact .inr rfl
  · exact .inl rfl

/-- **The effect of** `=` after a number: the value is shown if there is one, and the error
otherwise.

**Proof sketch.** After a number the line is evaluated, and the two outcomes are the two cases. -/
theorem press_equals_cases (hp : p.ready = true) :
    (∃ v, evaluate (toAscii p.screen) = .ok v ∧
      p.press .equals = { p with screen := display v, pointed := true }) ∨
    ((∀ v, evaluate (toAscii p.screen) ≠ .ok v) ∧ p.press .equals = p.fail) := by
  rw [press, equals, if_pos hp]
  cases h : evaluate (toAscii p.screen) with
  | ok v => exact .inl ⟨v, rfl, rfl⟩
  | error e => exact .inr ⟨fun v => by simp, rfl⟩

/-- **The effect of** `%` after a number: a hundredth is shown if there is one, and the error
otherwise.

**Proof sketch.** As for `=`, with a hundredth of the line in place of its value. -/
theorem press_percent_cases (hp : p.ready = true) :
    (∃ v, PocketCalculator.percent p.screen = .ok v ∧
      p.press .percent = { p with screen := display v }) ∨
    ((∀ v, PocketCalculator.percent p.screen ≠ .ok v) ∧ p.press .percent = p.fail) := by
  rw [press, percent, if_pos hp]
  cases h : PocketCalculator.percent p.screen with
  | ok v => exact .inl ⟨v, rfl, rfl⟩
  | error e => exact .inr ⟨fun v => by simp, rfl⟩

/-- After a number, `=` shows the value that the line has. -/
lemma press_equals_of_ok {v : Float} (hp : p.ready = true)
    (h : evaluate (toAscii p.screen) = .ok v) :
    p.press .equals = ⟨display v, true, false, true⟩ := by
  obtain ⟨hnum, hfailed⟩ := ready_iff.mp hp
  rw [press, equals, if_pos hp, h, hnum, hfailed]

/-- After a number, `%` shows a hundredth of it. -/
lemma press_percent_of_ok {v : Float} (hp : p.ready = true)
    (h : PocketCalculator.percent p.screen = .ok v) :
    p.press .percent = ⟨display v, true, false, p.pointed⟩ := by
  obtain ⟨hnum, hfailed⟩ := ready_iff.mp hp
  rw [press, percent, if_pos hp, h, hnum, hfailed]

/-- **The screen after a key that edits the line**: digits are added, a key that needs a number adds
a point or an operator if anything, and the two others take one character off or all.

**Proof sketch.** Key by key. Digits are added in any case; a point and an operator are added or
have no effect (`press_point_cases`, `press_operator_cases`); and taking the last character off an
empty line leaves it empty. -/
theorem screen_press_cases (hk : k.isTyping = true) (hp : p.failed = false) :
    (∃ ds, k.digits? = some ds ∧ (p.press k).screen = p.screen ++ ds) ∨
    (k.needsNumber = true ∧ ((p.press k).screen = p.screen ∨
      (p.press k).screen = p.screen ++ ['.'] ∨
      ∃ op : Operator, (p.press k).screen = p.screen ++ [' ', op.glyph, ' '])) ∨
    (k = .delete ∧ (p.press k).screen = p.screen.dropLast) ∨
    (k = .clear ∧ (p.press k).screen = []) := by
  have hdigits : ∀ ds, k.digits? = some ds → (p.press k).screen = p.screen ++ ds := by
    intro ds h
    rw [press_digits hp h]
  cases k with
  | digit d => exact .inl ⟨_, rfl, hdigits _ rfl⟩
  | doubleZero => exact .inl ⟨_, rfl, hdigits _ rfl⟩
  | point =>
    refine .inr (.inl ⟨rfl, ?_⟩)
    rcases press_point_cases p with hpress | hpress
    · exact .inl (by rw [hpress])
    · exact .inr (.inl (by rw [hpress]))
  | operator op =>
    refine .inr (.inl ⟨rfl, ?_⟩)
    rcases press_operator_cases p op with hpress | hpress
    · exact .inl (by rw [hpress])
    · exact .inr (.inr ⟨op, by rw [hpress]⟩)
  | delete =>
    refine .inr (.inr (.inl ⟨rfl, ?_⟩))
    rw [press, delete]
    split
    · rename_i hempty
      rw [List.isEmpty_iff.mp hempty]
      rfl
    · rfl
  | clear => exact .inr (.inr (.inr ⟨rfl, rfl⟩))
  | equals => simp [Key.isTyping] at hk
  | percent => simp [Key.isTyping] at hk

end Pad

end PocketCalculator
