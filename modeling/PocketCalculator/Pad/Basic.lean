import PocketCalculator.Display
import PocketCalculator.Expression.Parser
import PocketCalculator.Pad.Key
import PocketCalculator.Percent

/-!
# The pad

The pad edits one line of text, the screen, and remembers three facts about what was entered. They
decide which keys have an effect: an operator, a point, `=` and `%` need a number before them, and a
number has one point at most. A refused calculation puts an error on the screen, which a digit or
`C` takes away.

## Main definitions

* `Pad` — the state of the pad.
* `Pad.press`, `Pad.pressAll` — the effect of a key and of several.
-/

namespace PocketCalculator

/-- The state of the pad. -/
structure Pad where
  /-- The text on the screen. -/
  screen : List Char := []
  /-- A number has just been entered or computed. -/
  numeric : Bool := false
  /-- The screen shows that a calculation was refused. -/
  failed : Bool := false
  /-- The current number has its point. -/
  pointed : Bool := false
deriving DecidableEq, Repr

namespace Pad

/-- What the screen shows for a refused calculation. -/
def errorText : List Char := ['E', 'r', 'r', 'o', 'r']

/-- The cleared pad. -/
def cleared : Pad := {}

/-- Types digits: they replace an error and are added to anything else. -/
def typeDigits (p : Pad) (ds : List Char) : Pad :=
  { p with screen := if p.failed then ds else p.screen ++ ds, numeric := true, failed := false }

/-- Whether a number that an operator or a calculation can use has just been entered. -/
def ready (p : Pad) : Bool :=
  p.numeric && !p.failed

/-- Types an operator with a space on both sides. It ends the current number. -/
def typeOperator (p : Pad) (op : Operator) : Pad :=
  if p.ready then
    { p with screen := p.screen ++ [' ', op.glyph, ' '], numeric := false, pointed := false }
  else p

/-- Types the point of the current number. -/
def typePoint (p : Pad) : Pad :=
  if p.ready && !p.pointed then
    { p with screen := p.screen ++ ['.'], numeric := false, pointed := true }
  else p

/-- Shows that a calculation was refused; its cause is not shown. -/
def fail (p : Pad) : Pad :=
  { p with screen := errorText, numeric := false, failed := true }

/-- Puts the value of the expression on the screen in its place. -/
def equals (p : Pad) : Pad :=
  if p.ready then
    match evaluate (toAscii p.screen) with
    | .ok v => { p with screen := display v, pointed := true }
    | .error _ => p.fail
  else p

/-- Puts a hundredth of the number on the screen in its place. -/
def percent (p : Pad) : Pad :=
  if p.ready then
    match PocketCalculator.percent p.screen with
    | .ok v => { p with screen := display v }
    | .error _ => p.fail
  else p

/-- What follows the last space of a text. -/
def currentNumber (screen : List Char) : List Char :=
  (screen.reverse.takeWhile (· != ' ')).reverse

/-- Whether a text ends with a digit. -/
def endsWithDigit (screen : List Char) : Bool :=
  screen.getLast?.any Char.isDigit

/-- Takes the last character off the screen and reads two of the facts off what is left. An empty
screen stays as it is, and so do the facts. -/
def delete (p : Pad) : Pad :=
  if p.screen.isEmpty then p
  else
    let screen := p.screen.dropLast
    { p with
      screen
      numeric := endsWithDigit screen
      pointed := (currentNumber screen).contains '.' }

/-- The effect of a key. -/
def press (p : Pad) : Key → Pad
  | .digit d => p.typeDigits [Nat.digitChar (d % 10)]
  | .doubleZero => p.typeDigits ['0', '0']
  | .point => p.typePoint
  | .operator op => p.typeOperator op
  | .equals => p.equals
  | .clear => cleared
  | .delete => p.delete
  | .percent => p.percent

/-- Presses keys one after another. -/
def pressAll (p : Pad) (keys : List Key) : Pad :=
  keys.foldl press p

/-- No keys change nothing. -/
@[simp]
theorem pressAll_nil (p : Pad) : p.pressAll [] = p :=
  rfl

/-- The first of several keys acts before the others. -/
@[simp]
theorem pressAll_cons (p : Pad) (k : Key) (ks : List Key) :
    p.pressAll (k :: ks) = (p.press k).pressAll ks :=
  rfl

/-- Keys pressed in two rows act one row after the other. -/
theorem pressAll_append (p : Pad) (ks ls : List Key) :
    p.pressAll (ks ++ ls) = (p.pressAll ks).pressAll ls :=
  List.foldl_append

end Pad

end PocketCalculator
