import Mathlib.Data.List.Chain
import Mathlib.Tactic.Common
import PocketCalculator.Expression.Basic
import PocketCalculator.Proofs.Decimal.Run

/-!
# The grammar of expressions

A sum is a chain of products and a product is a chain of operands, both grouped to the left. An
operand is a number, an operand with a sign in front, or a sum in a pair of parentheses. Here the
parentheses come in pairs; nothing is said about texts that leave some of them open.

## Main definitions

* `Rank` — the three kinds of expressions.
* `Derives` — a list of tokens is an expression of a rank.
* `Expr.height` — how many operands of an expression stand one within another.

## Main results

* `Derives.count_openParen` — parentheses come in pairs.
* `Derives.isChain_apart` — no two numbers stand side by side.
-/

namespace PocketCalculator

/-- The kinds of expressions: what binds tightest comes first. -/
inductive Rank
  | operand
  | product
  | sum
deriving DecidableEq, Repr

/-- The kind of chain that an operator makes. -/
def Operator.rank : Operator → Rank
  | .mul | .div => .product
  | .add | .sub => .sum

/-- The token of an operator. -/
def Operator.token : Operator → Token
  | .add => .plus
  | .sub => .minus
  | .mul => .times
  | .div => .divide

/-- The token of a sign. -/
def Sign.token : Sign → Token
  | .plus => .plus
  | .minus => .minus

/-- How many operands of an expression stand one within another, at most: a number counts one, a
sign and a pair of parentheses one more than what they hold. -/
def Expr.height : Expr → ℕ
  | number _ => 1
  | signed _ e => e.height + 1
  | paren e => e.height + 1
  | binary _ l r => max l.height r.height

/-- `Derives r ts e` says that the tokens `ts` are the expression `e`, of rank `r`. -/
inductive Derives : Rank → List Token → Expr → Prop
  /-- A number is the decimal that its run spells, valued as the numeral that it is. -/
  | number {c : Char} {more : List Char} (run : IsNumber (c :: more))
      (value : Numeral.read (c :: more) = .ok (Decimal.ofRun (c :: more)).toFloat) :
      Derives .operand [.number c more] (.number (Decimal.ofRun (c :: more)))
  /-- A sign stands in front of an operand. -/
  | signed (s : Sign) {ts : List Token} {e : Expr} (inner : Derives .operand ts e) :
      Derives .operand (s.token :: ts) (.signed s e)
  /-- A sum in parentheses is an operand. -/
  | paren {ts : List Token} {e : Expr} (inner : Derives .sum ts e) :
      Derives .operand (.openParen :: ts ++ [.closeParen]) (.paren e)
  /-- An operand is a product of one. -/
  | operand {ts : List Token} {e : Expr} (only : Derives .operand ts e) : Derives .product ts e
  /-- A product goes on with a further operand. -/
  | times (op : Operator) (hop : op.rank = .product) {ls rs : List Token} {l r : Expr}
      (left : Derives .product ls l) (right : Derives .operand rs r) :
      Derives .product (ls ++ op.token :: rs) (.binary op l r)
  /-- A product is a sum of one. -/
  | product {ts : List Token} {e : Expr} (only : Derives .product ts e) : Derives .sum ts e
  /-- A sum goes on with a further product. -/
  | plus (op : Operator) (hop : op.rank = .sum) {ls rs : List Token} {l r : Expr}
      (left : Derives .sum ls l) (right : Derives .product rs r) :
      Derives .sum (ls ++ op.token :: rs) (.binary op l r)

/-- Every number is an operand. -/
lemma derives_number {c : Char} {more : List Char} (h : IsNumber (c :: more)) :
    Derives .operand [.number c more] (.number (Decimal.ofRun (c :: more))) :=
  .number h h.read

/-! ## Parentheses -/

/-- The token of an operator is no parenthesis. -/
lemma Operator.token_ne_paren (op : Operator) :
    op.token ≠ .openParen ∧ op.token ≠ .closeParen := by
  cases op <;> decide

/-- The token of a sign is no parenthesis. -/
lemma Sign.token_ne_paren (s : Sign) : s.token ≠ .openParen ∧ s.token ≠ .closeParen := by
  cases s <;> decide

/-- **Parentheses come in pairs**: an expression has as many opening as closing ones.

**Proof sketch.** Induction on the derivation. Numbers, signs and operators are no parentheses, and
the one rule that adds any adds one of each. -/
theorem Derives.count_openParen {r : Rank} {ts : List Token} {e : Expr} (h : Derives r ts e) :
    ts.count .openParen = ts.count .closeParen := by
  induction h with
  | number => rfl
  | signed s _ ih =>
    rw [List.count_cons_of_ne s.token_ne_paren.1, List.count_cons_of_ne s.token_ne_paren.2, ih]
  | paren _ ih =>
    rw [List.cons_append, List.count_cons_self, List.count_cons_of_ne (by decide),
      List.count_append, List.count_append, ih]
    rfl
  | operand _ ih => exact ih
  | times op _ _ _ ihl ihr =>
    rw [List.count_append, List.count_append, List.count_cons_of_ne op.token_ne_paren.1,
      List.count_cons_of_ne op.token_ne_paren.2, ihl, ihr]
  | product _ ih => exact ih
  | plus op _ _ _ ihl ihr =>
    rw [List.count_append, List.count_append, List.count_cons_of_ne op.token_ne_paren.1,
      List.count_cons_of_ne op.token_ne_paren.2, ihl, ihr]

/-! ## Numbers -/

/-- Whether a token is a number. -/
def Token.isNumber : Token → Bool
  | number _ _ => true
  | _ => false

/-- Two tokens of which one at most is a number. -/
def Token.Apart (s t : Token) : Prop :=
  s.isNumber = true → t.isNumber = false

/-- The token of an operator is no number. -/
lemma Operator.isNumber_token (op : Operator) : op.token.isNumber = false := by
  cases op <;> rfl

/-- Chains stay chains when an operator joins them.

**Proof sketch.** The operator is no number, so it is apart from the last token before it, whatever
that is, and from the first token after it. -/
lemma isChain_apart_join (op : Operator) {ls rs : List Token} (hl : ls.IsChain Token.Apart)
    (hr : rs.IsChain Token.Apart) : (ls ++ op.token :: rs).IsChain Token.Apart := by
  refine List.isChain_append.mpr ⟨hl, List.isChain_cons.mpr ⟨fun t _ hop => ?_, hr⟩, ?_⟩
  · rw [op.isNumber_token] at hop
    exact absurd hop (by decide)
  · intro s _ t ht _
    obtain rfl : op.token = t := by simpa using ht
    exact op.isNumber_token

/-- **Numbers stand apart**: in an expression no two of them stand side by side.

**Proof sketch.** Induction on the derivation. A sign and a parenthesis are no numbers, so they may
be put in front of a chain or behind it, and an operator may join two chains
(`isChain_apart_join`). -/
theorem Derives.isChain_apart {r : Rank} {ts : List Token} {e : Expr} (h : Derives r ts e) :
    ts.IsChain Token.Apart := by
  induction h with
  | number => exact List.isChain_singleton _
  | signed s _ ih =>
    refine List.isChain_cons.mpr ⟨fun t _ hs => ?_, ih⟩
    cases s <;> exact absurd hs (by decide)
  | paren _ ih =>
    rw [List.cons_append]
    refine List.isChain_cons.mpr ⟨fun t _ hs => absurd hs (by decide), ?_⟩
    refine List.isChain_append.mpr ⟨ih, List.isChain_singleton _, fun s _ t ht _ => ?_⟩
    obtain rfl : Token.closeParen = t := by simpa using ht
    rfl
  | operand _ ih => exact ih
  | times op _ _ _ ihl ihr => exact isChain_apart_join op ihl ihr
  | product _ ih => exact ih
  | plus op _ _ _ ihl ihr => exact isChain_apart_join op ihl ihr

end PocketCalculator
