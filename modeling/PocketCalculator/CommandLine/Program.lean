import PocketCalculator.Pad.Basic

/-!
# The program and its options

With an option the program calculates once and prints what the screen would show; without any it
opens its window. Which options there are is declared here, and what becomes of their values. To
find them among the arguments is left to a library, clap, and to open a window to another one,
eframe. Neither is described here: a run of the program takes both as they are.

## Main definitions

* `CommandLine.Declared` — an option as a program declares it.
* `CommandLine.Libraries` — what the program takes from libraries.
* `CommandLine.declaredOptions` — the options of this program.
* `CommandLine.Outcome`, `CommandLine.Libraries.run` — what the program prints and its exit code.
-/

namespace PocketCalculator.CommandLine

/-! ## Options in general -/

/-- An option with one value, as a program declares it. It is called by its name, and by the first
letter of its name. -/
structure Declared where
  name : List Char
  /-- Whether its value may begin with a hyphen. -/
  hyphenValues : Bool
  /-- The names of options that it cannot be given together with. -/
  conflicts : List (List Char)
deriving DecidableEq, Repr

namespace Declared

/-- The letter of an option. -/
def letter? (d : Declared) : Option Char :=
  d.name.head?

/-- Whether a text may be the value of an option. -/
def Accepts (d : Declared) (value : List Char) : Prop :=
  d.hyphenValues = true ∨ value.head? ≠ some '-'
deriving Decidable

/-- Whether two options cannot be given together. It is enough that one of them declares it. -/
def Excludes (d d' : Declared) : Prop :=
  d'.name ∈ d.conflicts ∨ d.name ∈ d'.conflicts
deriving Decidable

end Declared

/-- The options that were given and their values, in the order of the arguments. -/
abbrev Given := List (Declared × List Char)

/-! ## Libraries -/

/-- Why arguments give no options. -/
inductive Refusal
  /-- Options that cannot be given together, or one that was given twice. -/
  | conflict
  /-- An option without a value. -/
  | incomplete
  /-- An argument that is none of the options. -/
  | unknown
  /-- The arguments ask for help. -/
  | help
  /-- The arguments ask for the version. -/
  | version
deriving DecidableEq, Repr

/-- Whether the arguments make no sense. -/
def Refusal.isMisuse : Refusal → Bool
  | conflict | incomplete | unknown => true
  | help | version => false

/-- How a run of the program ends. -/
structure Outcome where
  /-- The exit code. -/
  exitCode : Nat
  /-- What is written to the standard output. -/
  output : List Char
deriving DecidableEq, Repr

/-- What the program takes from libraries. -/
structure Libraries where
  /-- The options of those that are declared that the arguments give. -/
  parse : List Declared → List (List Char) → Except Refusal Given
  /-- How a program ends whose arguments give none. -/
  exit : Refusal → Outcome
  /-- Whether the window can be opened, and is closed again without a failure. -/
  window : Bool

/-! ## The options of the program -/

/-- The two options of the program. -/
inductive Choice
  | expression
  | percent
deriving DecidableEq, Repr

/-- The name of an option. -/
def Choice.name : Choice → List Char
  | expression => "expression".toList
  | percent => "pourcent".toList

/-- What is declared of an option: both values may begin with a hyphen, and the first option
excludes the second one. -/
def Choice.declared : Choice → Declared
  | expression => ⟨name expression, true, [name percent]⟩
  | percent => ⟨name percent, true, []⟩

/-- All options of the program. -/
def declaredOptions : List Declared :=
  [Choice.declared .expression, Choice.declared .percent]

/-- The values of the options, as far as they were given. -/
structure Options where
  /-- The value of the option for an expression. -/
  expression : Option (List Char)
  /-- The value of the option for a percentage. -/
  percent : Option (List Char)

/-- The values that options were given. -/
def Options.ofGiven (given : Given) : Options where
  expression := given.lookup (Choice.declared .expression)
  percent := given.lookup (Choice.declared .percent)

/-! ## Outcomes -/

/-- A line of output. -/
def line (cs : List Char) : List Char :=
  cs ++ ['\n']

/-- The outcome of a calculation: its result, or the error that the screen shows. -/
def Outcome.ofResult : Except CalcError Float → Outcome
  | .ok v => ⟨0, line (display v)⟩
  | .error _ => ⟨1, line Pad.errorText⟩

/-- The outcome of the program with its options. An expression comes before a percentage, and
without both of them a window is opened. -/
def Options.outcome (window : Bool) (options : Options) : Outcome :=
  match options.expression with
  | some value => .ofResult (evaluate (toAscii value))
  | none =>
    match options.percent with
    | some value => .ofResult (PocketCalculator.percent value)
    | none => if window then ⟨0, []⟩ else ⟨1, []⟩

/-- The outcome of a call of the program. -/
def Libraries.run (libs : Libraries) (args : List (List Char)) : Outcome :=
  match libs.parse declaredOptions args with
  | .error refusal => libs.exit refusal
  | .ok given => (Options.ofGiven given).outcome libs.window

end PocketCalculator.CommandLine
