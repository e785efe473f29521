import Mathlib.Tactic.Common
import PocketCalculator.Proofs.CommandLine.Documented
import PocketCalculator.Proofs.Pad.Keys

/-!
# Options and keys

An option with a value can be spelled in several ways, and the value is any text, also one that
looks like an option itself. The program does not tell the spellings apart, and it takes one of its
two options at most. With one it does what a key of the pad does: it prints the screen that the key
leaves, and its exit code says whether the screen shows an error.

All this is so with every library that reads options as it is documented. It depends on what is
declared of them: that every text is accepted as a value, and that one option excludes the other.

## Main definitions

* `CommandLine.Choice.key` — the key that does what an option asks for.
* `CommandLine.Spells` — the spellings of an option with its value.

## Main results

* `CommandLine.Spells.gives` — a spelling gives the option its value.
* `CommandLine.run_spells`, `CommandLine.run_both` — what the program does with one option and with
  both.
* `CommandLine.outcome_calculate` — what a calculation prints, and how it exits.
* `CommandLine.run_eq_press` — options do what keys do, whatever their spelling.
-/

namespace PocketCalculator.CommandLine

/-! ## Spellings -/

/-- The key of the pad that does what an option asks for. -/
def Choice.key : Choice → Key
  | expression => .equals
  | percent => .percent

/-- `Spells c value args` says that the arguments `args` give the option `c` the value `value`. -/
inductive Spells (c : Choice) (value : List Char) : List (List Char) → Prop
  /-- The value is the next argument after the letter, whatever it looks like. -/
  | short : Spells c value [['-', c.letter], value]
  /-- The value is the next argument after the name. -/
  | long : Spells c value ['-' :: '-' :: c.name, value]
  /-- The value is attached to the name by an equals sign. -/
  | longAttached : Spells c value ['-' :: '-' :: c.name ++ '=' :: value]
  /-- The value is attached to the letter by an equals sign. -/
  | shortAttached : Spells c value [['-', c.letter] ++ '=' :: value]
  /-- The value is attached to the letter as it is. It cannot be empty then, and it cannot begin
  with the sign that would be taken off it. -/
  | glued (nonempty : value ≠ []) (plain : value.head? ≠ some '=') :
    Spells c value [['-', c.letter] ++ value]

/-! ## Runs with options -/

section

variable {libs : Libraries} {c : Choice} {value : List Char} {args : List (List Char)}

/-- **A spelling gives the option its value**, for the declaration accepts every text.

**Proof sketch.** Each spelling is one of those that are documented, with the letter and the name
that are declared. Values that begin with a hyphen are allowed. -/
lemma Spells.gives (h : libs.Documented declaredOptions) (hs : Spells c value args) :
    libs.Gives declaredOptions c.declared value args := by
  have hmem : c.declared ∈ declaredOptions := mem_declaredOptions.mpr ⟨c, rfl⟩
  have hletter := c.letter?_declared
  have haccepts := c.accepts value
  have hname := c.name_declared
  cases hs with
  | short => exact h.short _ hmem _ hletter value haccepts
  | long => exact hname ▸ h.long _ hmem value haccepts
  | longAttached => exact hname ▸ h.longAttached _ hmem value haccepts
  | shortAttached => exact h.shortAttached _ hmem _ hletter value haccepts
  | glued nonempty plain => exact h.glued _ hmem _ hletter value haccepts nonempty plain

/-- The option for an expression excludes the other one, and is excluded by it. -/
lemma Choice.excludes {c c' : Choice} (hne : c ≠ c') : c.declared.Excludes c'.declared := by
  cases c <;> cases c'
  · exact absurd rfl hne
  · exact .inl (List.mem_singleton.mpr rfl)
  · exact .inr (List.mem_singleton.mpr rfl)
  · exact absurd rfl hne

/-- What an option calculates. -/
def Choice.result : Choice → List Char → Except CalcError Float
  | expression, value => evaluate (toAscii value)
  | percent, value => PocketCalculator.percent value

/-- **With one option the program prints what the option calculates.**

**Proof sketch.** No other option is given besides, so that the arguments are read as this one, and
of the two values the program finds only its one. -/
theorem run_spells (h : libs.Documented declaredOptions) (hs : Spells c value args) :
    libs.run args = .ofResult (c.result value) := by
  have hparse := hs.gives h [] [] h.nothing (by simp)
  rw [List.append_nil] at hparse
  simp only [Libraries.run, hparse]
  cases c <;> rfl

/-- **Both options together make no sense**, whichever comes first.

**Proof sketch.** The options exclude each other, though only one of them declares it. What cannot
be given together is a misuse, and the program ends with its code and prints nothing. -/
theorem run_both (h : libs.Documented declaredOptions) {c' : Choice} (hne : c ≠ c')
    {value' : List Char} {args' : List (List Char)} (hs : Spells c value args)
    (hs' : Spells c' value' args') : libs.run (args ++ args') = ⟨2, []⟩ := by
  have hparse : libs.parse declaredOptions (args ++ args') = .error .conflict :=
    h.conflict _ (mem_declaredOptions.mpr ⟨c, rfl⟩) _ (mem_declaredOptions.mpr ⟨c', rfl⟩)
      (Choice.excludes hne) value value' args args' (hs.gives h) (hs'.gives h)
  simp only [Libraries.run, hparse]
  exact h.exit_misuse .conflict rfl

end

/-! ## Options and keys -/

/-- After a number, the key of an option shows what the option calculates, or the error if there is
no result.

**Proof sketch.** By what the option calculates. A number is what the key shows. Without one the key
does not show one either, for it calculates the same, and so it fails. -/
lemma press_key_cases (c : Choice) {p : Pad} (hready : p.ready = true) :
    (∃ v, c.result p.screen = .ok v ∧ (p.press c.key).screen = display v ∧
      (p.press c.key).failed = false) ∨
    ∃ err, c.result p.screen = .error err ∧ (p.press c.key).screen = Pad.errorText ∧
      (p.press c.key).failed = true := by
  cases hresult : c.result p.screen with
  | ok v =>
    refine .inl ⟨v, rfl, ?_⟩
    cases c with
    | expression =>
      rw [Choice.key, Pad.press_equals_of_ok hready hresult]
      exact ⟨rfl, rfl⟩
    | percent =>
      rw [Choice.key, Pad.press_percent_of_ok hready hresult]
      exact ⟨rfl, rfl⟩
  | error err =>
    have hfail : p.press c.key = p.fail := by
      cases c with
      | expression =>
        rcases Pad.press_equals_cases hready with ⟨v, hv, -⟩ | ⟨-, hpress⟩
        · exact absurd (hresult.symm.trans hv) (by simp)
        · exact hpress
      | percent =>
        rcases Pad.press_percent_cases hready with ⟨v, hv, -⟩ | ⟨-, hpress⟩
        · exact absurd (hresult.symm.trans hv) (by simp)
        · exact hpress
    rw [hfail]
    exact .inr ⟨err, rfl, rfl, rfl⟩

/-- **A calculation prints the screen that its key leaves**, and its exit code tells an error.

**Proof sketch.** The key shows the same result that the option calculates, or the text that the
program prints in place of one. -/
theorem outcome_calculate (c : Choice) {p : Pad} (hready : p.ready = true) :
    Outcome.ofResult (c.result p.screen) =
      ⟨if (p.press c.key).failed then 1 else 0, line (p.press c.key).screen⟩ := by
  rcases press_key_cases c hready with ⟨v, hresult, hscreen, hfailed⟩ |
    ⟨err, hresult, hscreen, hfailed⟩
  · rw [hresult, hscreen, hfailed]
    rfl
  · rw [hresult, hscreen, hfailed]
    rfl

/-- **Options do what keys do**, with every library that reads options as it is documented. After a
number and without an error, an option with the screen as its value prints the screen that `=` or
`%` leaves, with exit code 0 if there is no error then and 1 if there is one; this is so for every
text on the screen. All spellings of an option with a value have the same outcome, and both options
together make no sense, in either order: the exit code is 2, and there is no output.

**Proof sketch.** Every spelling is documented to give the option its value, for every text is
declared to be accepted, and then the program calculates what the key does (`run_spells`,
`outcome_calculate`). Of both options one is declared to exclude the other, which is documented to
be a misuse in either order (`run_both`). -/
theorem run_eq_press {libs : Libraries} (h : libs.Documented declaredOptions) :
    (∀ (p : Pad) (c : Choice) (args : List (List Char)), p.numeric = true → p.failed = false →
      Spells c p.screen args →
      libs.run args = ⟨if (p.press c.key).failed then 1 else 0, line (p.press c.key).screen⟩ ∧
        ((p.press c.key).failed = true → (p.press c.key).screen = Pad.errorText)) ∧
    (∀ (c : Choice) (value : List Char) (args args' : List (List Char)),
      Spells c value args → Spells c value args' → libs.run args = libs.run args') ∧
    ∀ (value value' : List Char) (args args' : List (List Char)),
      Spells .expression value args → Spells .percent value' args' →
      libs.run (args ++ args') = ⟨2, []⟩ ∧ libs.run (args' ++ args) = ⟨2, []⟩ := by
  refine ⟨fun p c args hnumeric hfailed hs => ?_, fun c value args args' hs hs' => ?_,
    fun value value' args args' hs hs' => ⟨?_, ?_⟩⟩
  · have hready : p.ready = true := Pad.ready_iff.mpr ⟨hnumeric, hfailed⟩
    refine ⟨(run_spells h hs).trans (outcome_calculate c hready), fun herror => ?_⟩
    rcases press_key_cases c hready with ⟨-, -, -, hnot⟩ | ⟨-, -, hscreen, -⟩
    · exact absurd (herror.symm.trans hnot) (by decide)
    · exact hscreen
  · exact (run_spells h hs).trans (run_spells h hs').symm
  · exact run_both h (by decide) hs hs'
  · exact run_both h (by decide) hs' hs

/-- The general result for the libraries that the program is run with, a value that looks like an
option, in two spellings, and two options of which the first one has the other one's letter as its
value. -/
theorem run_eq_press_hyphens :
    libraries.Documented declaredOptions ∧
    run ["-e".toList, "--version".toList] = ⟨1, "Error\n".toList⟩ ∧
    run ["-e--version".toList] = run ["--expression=--version".toList] ∧
    run ["-e".toList, "-p".toList, "-p50".toList] = ⟨2, []⟩ := by
  obtain ⟨hpress, hsame, htwo⟩ := run_eq_press documented_libraries
  refine ⟨documented_libraries, ?_, ?_, ?_⟩
  · have hrun := (hpress { screen := "--version".toList, numeric := true } .expression _ rfl rfl
      .short).1
    exact hrun.trans (by decide +kernel)
  · exact hsame .expression "--version".toList _ _ (.glued (by decide) (by decide)) .longAttached
  · exact (htwo "-p".toList "50".toList _ _ .short (.glued (by decide) (by decide))).1

end PocketCalculator.CommandLine
