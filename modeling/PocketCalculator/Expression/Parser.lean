import PocketCalculator.Error
import PocketCalculator.Expression.Basic
import PocketCalculator.Expression.Token

/-!
# Reading expressions

The tokens of a text are read as an expression by recursive descent. Sums are chains of products
and products are chains of operands, both grouped to the left; an operand is a number, a signed
operand, or a sum in parentheses, whose closing parenthesis may be missing.

Operands can hold operands, and how deep they may do so is bounded: reading an operand takes one
unit of *room*, and without any left the text is refused before its next token is looked at. The
room is also what the recursion runs on.

## Main definitions

* `Parser.chain` — operands joined by operators of one rank.
* `Parser.operand`, `Parser.product`, `Parser.sum` — the three levels of an expression.
* `Expr.parse` — the expression that a text spells.
* `evaluate` — its value.
-/

namespace PocketCalculator

/-- What reading an expression from the front of a token list gives: the expression and the tokens
after it, or the cause of a refusal. -/
abbrev Parser := List Token → Except CalcError (Expr × List Token)

namespace Parser

/-! ## Chains -/

/-- Joins further operands to `left` as long as an operator of the wanted rank follows. The
recursion runs on a list of which only the length matters: it bounds the number of links. Each link
uses up a token at least, so that the tokens themselves will do for it. -/
def chainFrom (operator? : Token → Option Operator) (item : Parser) :
    List Token → Expr → List Token → Except CalcError (Expr × List Token)
  | [], left, ts => .ok (left, ts)
  | _ :: _, left, [] => .ok (left, [])
  | _ :: bound, left, t :: ts =>
    match operator? t with
    | none => .ok (left, t :: ts)
    | some op =>
      match item ts with
      | .error e => .error e
      | .ok (right, rest) => chainFrom operator? item bound (.binary op left right) rest

/-- One or more operands joined by operators of one rank, grouped to the left. -/
def chain (operator? : Token → Option Operator) (item : Parser) : Parser := fun ts =>
  match item ts with
  | .error e => .error e
  | .ok (left, rest) => chainFrom operator? item rest left rest

/-- The operators that join factors. -/
def multiplicative? : Token → Option Operator
  | .times => some .mul
  | .divide => some .div
  | _ => none

/-- The operators that join terms. -/
def additive? : Token → Option Operator
  | .plus => some .add
  | .minus => some .sub
  | _ => none

/-- A product whose operands are read by `item`. -/
def productOf (item : Parser) : Parser :=
  chain multiplicative? item

/-- A sum of products whose operands are read by `item`. -/
def sumOf (item : Parser) : Parser :=
  chain additive? (productOf item)

/-! ## Operands -/

/-- The tokens left after an optional closing parenthesis. -/
def skipClosing : List Token → List Token
  | .closeParen :: ts => ts
  | ts => ts

/-- The number that a run of digits and points spells. What is wrong with the run is passed on. -/
def number (run : List Char) (rest : List Token) : Except CalcError (Expr × List Token) :=
  match Numeral.readDecimal run with
  | .ok d => .ok (.number d, rest)
  | .error fault => .error (.badNumber run fault)

/-- An operand in which at most `room` operands, itself among them, stand one within another. The
limit is what a refusal names; it decides nothing here. -/
def operand (limit : Nat) : Nat → Parser
  | 0, _ => .error (.tooDeep limit)
  | _ + 1, [] => .error (.unexpected none)
  | room + 1, t :: ts =>
    match t with
    | .plus => (operand limit room ts).map fun (e, rest) => (.signed .plus e, rest)
    | .minus => (operand limit room ts).map fun (e, rest) => (.signed .minus e, rest)
    | .openParen =>
      (sumOf (operand limit room) ts).map fun (e, rest) => (.paren e, skipClosing rest)
    | .number c more => number (c :: more) ts
    | t => .error (.unexpected (some t.first))

/-- A product of operands with the given room. -/
def product (limit room : Nat) : Parser :=
  productOf (operand limit room)

/-- A sum of products of operands with the given room. -/
def sum (limit room : Nat) : Parser :=
  sumOf (operand limit room)

end Parser

/-! ## Whole texts -/

/-- The expression that a text spells, if at most `limit` operands stand one within another. All of
the text has to be used up. -/
def Expr.parse (limit : Nat) (text : List Char) : Except CalcError Expr :=
  match Parser.sum limit limit (Token.scan text) with
  | .error e => .error e
  | .ok (e, []) => .ok e
  | .ok (_, t :: _) => .error (.unexpected (some t.first))

/-- How many operands may stand one within another. -/
def nestingLimit : Nat := 256

/-- The value of the expression that a text spells. -/
def evaluate (text : List Char) : Except CalcError Float :=
  (Expr.parse nestingLimit text).map Expr.eval

end PocketCalculator
