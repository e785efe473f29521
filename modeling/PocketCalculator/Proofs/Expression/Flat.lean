import Mathlib.Data.Nat.Basic
import Mathlib.Tactic.Common
import PocketCalculator.Proofs.Expression.Recognition

/-!
# Flat expressions

An expression without parentheses is a first operand and a list of further ones, each with the
operator in front of it. It is worked out in two passes: first the products from the left, then the
sum of what they give, from the left again. This works for values of any kind: for doubles it gives
the value, and for expressions the tree of the grammar.

## Main definitions

* `Flat.terms` — the first pass.
* `Flat.total` — both passes.

## Main results

* `Flat.map_total` — working out commutes with what commutes with the operations.
* `Flat.derives_total` — the tree of a flat expression is the one that the grammar gives.
* `Flat.evaluate_eq_ok` — the value of a flat expression.
-/

namespace PocketCalculator.Flat

variable {α β : Type*}

/-- The first pass works out the products. It leaves the first term of the sum, and the further ones
with the operators in front of them. -/
def terms (f : Operator → α → α → α) : α → List (Operator × α) → α × List (Operator × α)
  | x, [] => (x, [])
  | x, (op, y) :: rest =>
    if op.rank = .product then terms f (f op x y) rest
    else (x, (op, (terms f y rest).1) :: (terms f y rest).2)

/-- The value of the operand `x` followed by further operators and operands: products are worked out
before sums, and both from the left. -/
def total (f : Operator → α → α → α) (x : α) (rest : List (Operator × α)) : α :=
  (terms f x rest).2.foldl (fun sum term => f term.1 sum term.2) (terms f x rest).1

variable {f : Operator → α → α → α}

/-! ## Both passes -/

/-- A product goes on with its next operand. -/
lemma terms_of_product {op : Operator} (h : op.rank = .product) (x y : α)
    (rest : List (Operator × α)) : terms f x ((op, y) :: rest) = terms f (f op x y) rest := by
  rw [terms, if_pos h]

/-- A term ends at an operator of the sum. -/
lemma terms_of_sum {op : Operator} (h : op.rank = .sum) (x y : α) (rest : List (Operator × α)) :
    terms f x ((op, y) :: rest) = (x, (op, (terms f y rest).1) :: (terms f y rest).2) := by
  rw [terms, if_neg (by simp [h])]

/-- An operator makes products or sums. -/
lemma rank_cases (op : Operator) : op.rank = .product ∨ op.rank = .sum := by
  cases op <;> decide

/-- What the operations keep holds of a total if it holds of all operands.

**Proof sketch.** It holds of all terms after the first pass, by induction on the operands, and so
of the sum of the terms. -/
theorem total_induction {P : α → Prop} (hf : ∀ op x y, P x → P y → P (f op x y)) {x : α}
    (hx : P x) {rest : List (Operator × α)} (hrest : ∀ y ∈ rest, P y.2) : P (total f x rest) := by
  have hterms : P (terms f x rest).1 ∧ ∀ y ∈ (terms f x rest).2, P y.2 := by
    induction rest generalizing x with
    | nil => exact ⟨hx, by simp [terms]⟩
    | cons y rest ih =>
      obtain ⟨op, y⟩ := y
      rw [List.forall_mem_cons] at hrest
      rcases rank_cases op with h | h
      · rw [terms_of_product h]
        exact ih (hf op x y hx hrest.1) hrest.2
      · rw [terms_of_sum h]
        exact ⟨hx, List.forall_mem_cons.mpr (ih hrest.1 hrest.2)⟩
  unfold total
  generalize terms f x rest = t at hterms
  obtain ⟨sum, more⟩ := t
  obtain ⟨hsum, hmore⟩ := hterms
  induction more generalizing sum with
  | nil => exact hsum
  | cons y more ih =>
    rw [List.forall_mem_cons] at hmore
    exact ih _ (hf y.1 sum y.2 hsum hmore.1) hmore.2

/-- **Working out commutes** with a map that commutes with the operations.

**Proof sketch.** By induction on the operands the map goes through the first pass, whether an
operand joins a product or begins a new term. The second pass is a fold, and maps that commute with
the operation go through folds. -/
theorem map_total {g : Operator → β → β → β} {m : α → β}
    (hm : ∀ op x y, m (f op x y) = g op (m x) (m y)) (x : α) (rest : List (Operator × α)) :
    m (total f x rest) = total g (m x) (rest.map fun y => (y.1, m y.2)) := by
  have hterms : terms g (m x) (rest.map fun y => (y.1, m y.2)) =
      (m (terms f x rest).1, (terms f x rest).2.map fun y => (y.1, m y.2)) := by
    induction rest generalizing x with
    | nil => rfl
    | cons y rest ih =>
      obtain ⟨op, y⟩ := y
      rw [List.map_cons]
      rcases rank_cases op with h | h
      · rw [terms_of_product h, terms_of_product h, ← hm, ih]
      · rw [terms_of_sum h, terms_of_sum h, ih, List.map_cons]
  unfold total
  rw [hterms, List.foldl_map]
  exact (List.foldl_hom m fun sum term => (hm term.1 sum term.2).symm).symm

/-! ## Trees -/

/-- The tokens of further operators and operands. -/
def tokens (rest : List (Operator × List Token × Expr)) : List Token :=
  rest.flatMap fun x => x.1.token :: x.2.1

/-- The operators and operands themselves, as trees. -/
def trees (rest : List (Operator × List Token × Expr)) : List (Operator × Expr) :=
  rest.map fun x => (x.1, x.2.2)

/-- The tokens of further operators and operands, one by one. -/
lemma tokens_cons (x : Operator × List Token × Expr) (rest : List (Operator × List Token × Expr)) :
    tokens (x :: rest) = x.1.token :: x.2.1 ++ tokens rest :=
  List.flatMap_cons

/-- A sum whose last term is still a product in progress goes on as the grammar says.

**Proof sketch.** Induction on the operands that are left. An operand of the product goes into the
last term; an operand of the sum ends that term and begins the next. -/
lemma derives_sum_of_terms {rest : List (Operator × List Token × Expr)}
    (hrest : ∀ x ∈ rest, Derives .operand x.2.1 x.2.2) {op : Operator} (hop : op.rank = .sum)
    {ls ts : List Token} {l e : Expr} (hl : Derives .sum ls l) (he : Derives .product ts e) :
    Derives .sum (ls ++ op.token :: (ts ++ tokens rest))
      ((terms .binary e (trees rest)).2.foldl (fun sum term => .binary term.1 sum term.2)
        (.binary op l (terms .binary e (trees rest)).1)) := by
  induction rest generalizing op ls ts l e with
  | nil =>
    rw [show tokens [] = [] from rfl, List.append_nil]
    exact .plus op hop hl he
  | cons x rest ih =>
    obtain ⟨op', us, y⟩ := x
    rw [List.forall_mem_cons] at hrest
    rw [tokens_cons, trees, List.map_cons]
    rcases rank_cases op' with h | h
    · rw [terms_of_product h]
      have hstep := ih hrest.2 hop hl (.times op' h he hrest.1)
      rwa [List.append_assoc, List.cons_append] at hstep
    · rw [terms_of_sum h]
      have hstep := ih hrest.2 h (.plus op hop hl he) (.operand hrest.1)
      rwa [List.append_assoc, List.cons_append] at hstep

/-- **The tree of a flat expression** is the one that the grammar gives: the two passes group the
operands as the ranks do.

**Proof sketch.** Induction on the operands. As long as operators of products come, the first term
grows. The first operator of a sum ends it, and from there on `derives_sum_of_terms` goes on. -/
theorem derives_total {ts : List Token} {e : Expr} (he : Derives .product ts e)
    {rest : List (Operator × List Token × Expr)}
    (hrest : ∀ x ∈ rest, Derives .operand x.2.1 x.2.2) :
    Derives .sum (ts ++ tokens rest) (total .binary e (trees rest)) := by
  induction rest generalizing ts e with
  | nil =>
    rw [show tokens [] = [] from rfl, List.append_nil]
    exact .product he
  | cons x rest ih =>
    obtain ⟨op, us, y⟩ := x
    rw [List.forall_mem_cons] at hrest
    rw [tokens_cons, trees, List.map_cons]
    rcases rank_cases op with h | h
    · rw [total, terms_of_product h]
      have hstep := ih (.times op h he hrest.1) hrest.2
      rwa [List.append_assoc, List.cons_append] at hstep
    · rw [total, terms_of_sum h]
      exact derives_sum_of_terms hrest.2 h (.product he) (.operand hrest.1)

/-- **The value of a flat expression**: a text with its tokens evaluates to the total of the values
of its operands.

**Proof sketch.** The tokens are those of the tree that both passes make of the operands
(`derives_total`). Joining trees by operators adds nothing to their height (`total_induction`), and
the value of the tree is what both passes make of the values (`map_total`). -/
theorem evaluate_eq_ok {text : List Char} {ts : List Token} {e : Expr}
    {rest : List (Operator × List Token × Expr)} (htext : Token.scan text = ts ++ tokens rest)
    (he : Derives .product ts e) (hrest : ∀ x ∈ rest, Derives .operand x.2.1 x.2.2)
    (hheight : e.height ≤ nestingLimit) (hheights : ∀ x ∈ rest, x.2.2.height ≤ nestingLimit) :
    evaluate text =
      .ok (total Operator.apply e.eval (rest.map fun x => (x.1, x.2.2.eval))) := by
  have hd : Derives .sum (Token.scan text ++ List.replicate 0 .closeParen)
      (total .binary e (trees rest)) := by
    rw [List.replicate_zero, List.append_nil, htext]
    exact derives_total he hrest
  have hh : (total .binary e (trees rest)).height ≤ nestingLimit := by
    refine total_induction (f := Expr.binary) (P := fun e => e.height ≤ nestingLimit)
      (fun _ _ _ hx hy => max_le hx hy) hheight fun y hy => ?_
    obtain ⟨x, hx, rfl⟩ := List.mem_map.mp hy
    exact hheights x hx
  have heval := map_total (f := .binary) (g := Operator.apply) (m := Expr.eval)
    (fun _ _ _ => rfl) e (trees rest)
  rw [evaluate_of_derives hd hh, heval, trees, List.map_map]
  rfl

end PocketCalculator.Flat
