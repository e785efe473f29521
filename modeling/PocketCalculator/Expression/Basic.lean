import PocketCalculator.Decimal.Basic

/-!
# Expressions

An expression is built from decimal numbers with signs, parentheses and the four operations. Its
value is computed in doubles: numbers are rounded to the nearest one and every operation rounds
once, so that a division by zero has an infinite or undefined value.

## Main definitions

* `Operator`, `Sign` — the operations.
* `Expr` — expressions, with their signs and parentheses.
* `Expr.eval` — the value of an expression.
-/

namespace PocketCalculator

/-- The four operations. -/
inductive Operator
  | add
  | sub
  | mul
  | div
deriving DecidableEq, Repr

/-- The result of an operation. -/
def Operator.apply : Operator → Float → Float → Float
  | .add, a, b => a + b
  | .sub, a, b => a - b
  | .mul, a, b => a * b
  | .div, a, b => a / b

/-- A sign in front of an operand. -/
inductive Sign
  | plus
  | minus
deriving DecidableEq, Repr

/-- The effect of a sign. -/
def Sign.apply : Sign → Float → Float
  | .plus, a => a
  | .minus, a => -a

/-- An arithmetic expression. Parentheses are kept, for they count in the nesting of operands. -/
inductive Expr
  | number (d : Decimal)
  | signed (s : Sign) (e : Expr)
  | paren (e : Expr)
  | binary (op : Operator) (l r : Expr)
deriving DecidableEq, Repr

/-- The value of an expression. -/
def Expr.eval : Expr → Float
  | number d => d.toFloat
  | signed s e => s.apply e.eval
  | paren e => e.eval
  | binary op l r => op.apply l.eval r.eval

end PocketCalculator
