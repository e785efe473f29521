import PocketCalculator.Expression.Basic

/-!
# Keys

The keys of the pad, their labels, and the characters of a keyboard that stand for them. The screen
shows a multiplication and a division by signs of their own, which are put into the characters of
an expression before one is read.

## Main definitions

* `Key` — the keys of the pad.
* `Key.label` — what is written on a key.
* `Key.ofChar?` — the key that a typed character stands for.
* `Operator.glyph`, `toAscii` — the signs of the screen.
-/

namespace PocketCalculator

/-- The sign by which the screen shows an operation. -/
def Operator.glyph : Operator → Char
  | .add => '+'
  | .sub => '-'
  | .mul => '×'
  | .div => '÷'

/-- A text of the screen in the characters that expressions are written in. -/
def toAscii (text : List Char) : List Char :=
  text.map fun c => if c = '÷' then '/' else if c = '×' then '*' else c

/-- The signs of a text are replaced one by one, whatever stands beside them. -/
theorem toAscii_append (s t : List Char) : toAscii (s ++ t) = toAscii s ++ toAscii t :=
  List.map_append

/-- A key of the pad. -/
inductive Key
  /-- A digit key. It types the last decimal digit of its number. -/
  | digit (d : Nat)
  | doubleZero
  | point
  | operator (op : Operator)
  | equals
  | clear
  | delete
  | percent
deriving DecidableEq, Repr

namespace Key

/-- What is written on a key. -/
def label : Key → List Char
  | digit d => Nat.toDigits 10 d
  | doubleZero => ['0', '0']
  | point => ['.']
  | operator op => [op.glyph]
  | equals => ['=']
  | clear => ['C']
  | delete => ['D', 'E', 'L']
  | percent => ['%']

/-- The key that a typed character stands for. Multiplication and division have several spellings,
and a comma is a point. -/
def ofChar? (c : Char) : Option Key :=
  if c.isDigit then some (digit (c.toNat - '0'.toNat))
  else if c = '.' ∨ c = ',' then some point
  else if c = '+' then some (operator .add)
  else if c = '-' then some (operator .sub)
  else if c = '*' ∨ c = 'x' ∨ c = 'X' ∨ c = '×' then some (operator .mul)
  else if c = '/' ∨ c = '÷' then some (operator .div)
  else if c = '%' then some percent
  else if c = '=' then some equals
  else none

/-- The sign of an operator, typed, stands for the key of that operator. -/
theorem ofChar?_glyph (op : Operator) : ofChar? op.glyph = some (operator op) := by
  cases op <;> decide

end Key

end PocketCalculator
