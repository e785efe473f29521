import Mathlib.Algebra.Order.Group.Int
import Mathlib.Tactic.Common
import PocketCalculator.Proofs.Binary64.Exact
import PocketCalculator.Proofs.Decimal.Value
import PocketCalculator.Proofs.Expression.Recognition

/-!
# Expressions of whole numbers

An expression without points can be worked out in integers. If every value on the way is at most
`2 ^ 53`, and every division comes out even, then working it out in doubles gives the same number:
nothing has to be rounded. What the doubles have beside the integers is a second zero, as the result
of `0 * -1` or `-0`, and it stands for zero too.

## Main definitions

* `Expr.evalInt` — the value of an expression in integers.
* `Expr.IsExact` — every value on the way is small enough, and every division comes out even.
* `Expr.Spelled` — the expression that a text is once its parentheses are closed.

## Main results

* `Operator.hasValue_apply` — one operation.
* `Expr.hasValue_eval` — a whole expression.
* `evaluate_whole` — texts without points.
-/

namespace PocketCalculator

open Token (scan)

/-! ## Integers -/

/-- The result of an operation on integers. Of a division this is the whole part only. -/
def Operator.applyInt : Operator → ℤ → ℤ → ℤ
  | .add, m, n => m + n
  | .sub, m, n => m - n
  | .mul, m, n => m * n
  | .div, m, n => m / n

/-- The effect of a sign on an integer. -/
def Sign.applyInt : Sign → ℤ → ℤ
  | .plus, n => n
  | .minus, n => -n

namespace Expr

/-- The value of an expression in integers, its numbers being the integers that their digits
spell. -/
def evalInt : Expr → ℤ
  | number d => d.coefficient
  | signed s e => s.applyInt e.evalInt
  | paren e => e.evalInt
  | binary op l r => op.applyInt l.evalInt r.evalInt

/-- Every value on the way to that of an expression is at most `2 ^ 53`, and no division is by zero
or leaves a remainder. -/
def IsExact : Expr → Prop
  | number d => |(number d).evalInt| ≤ 2 ^ 53
  | signed s e => e.IsExact ∧ |(signed s e).evalInt| ≤ 2 ^ 53
  | paren e => e.IsExact
  | binary op l r => l.IsExact ∧ r.IsExact ∧ (op = .div → r.evalInt ≠ 0 ∧ r.evalInt ∣ l.evalInt) ∧
    |(binary op l r).evalInt| ≤ 2 ^ 53

/-- All numbers of an expression are whole. -/
def IsWhole : Expr → Prop
  | number d => d.exponent = 0
  | signed _ e => e.IsWhole
  | paren e => e.IsWhole
  | binary _ l r => l.IsWhole ∧ r.IsWhole

end Expr

/-! ## Doubles -/

/-- **A decimal is read exactly** if a double has its value.

**Proof sketch.** A decimal is not negative, so that the double has its value up to a sign that
matters at zero only. The nearest magnitude to the value of a finite magnitude is this magnitude
(`Binary64.nearest_unpack`), and the decimal is rounded to it. -/
theorem Decimal.hasValue_toFloat {d : Decimal} {v : Float} (h : Binary64.HasValue v d.value) :
    Binary64.HasValue d.toFloat d.value := by
  obtain ⟨hfin, hvalue⟩ := h
  have hnonneg : 0 ≤ d.value := by unfold value; positivity
  -- the sign matters at zero only
  have hparts : (Binary64.unpack (Binary64.magnitude v)).1 *
      2 ^ (Binary64.unpack (Binary64.magnitude v)).2 = d.value := by
    rw [Binary64.value] at hvalue
    split at hvalue
    · have hpos : (0 : ℚ) ≤ (Binary64.unpack (Binary64.magnitude v)).1 *
        2 ^ (Binary64.unpack (Binary64.magnitude v)).2 := by positivity
      linarith only [hvalue, hnonneg, hpos]
    · rwa [one_mul] at hvalue
  have hmagnitude : d.magnitude = Binary64.magnitude v := by
    refine (magnitude_eq_nearest (by positivity) ?_).trans (Binary64.nearest_unpack hfin)
    rw [← hparts, Binary64.zpow_eq_div, mul_div_assoc']
    push_cast
    rfl
  have hread := Binary64.hasValue_ofMagnitude false hfin
  rwa [hparts, ← hmagnitude, Binary64.unit_sign, if_neg Bool.false_ne_true, one_mul] at hread

/-- An effect of a sign is exact. -/
lemma Sign.hasValue_apply (s : Sign) {a : Float} {n : ℤ} (h : Binary64.HasValue a n) :
    Binary64.HasValue (s.apply a) (s.applyInt n) := by
  cases s with
  | plus => exact h
  | minus =>
    rw [applyInt, Int.cast_neg]
    exact h.neg

/-- **An operation is exact** if its result is at most `2 ^ 53`, and a division if it comes out
even.

**Proof sketch.** The result is an integer of at most `2 ^ 53`, so some double has it
(`Binary64.exists_hasValue_int`). An operation whose exact result is the value of a double gives it
(`Binary64.HasValue.add` and the others), and a division that comes out even has the integer
quotient. -/
theorem Operator.hasValue_apply (op : Operator) {a b : Float} {m n : ℤ}
    (ha : Binary64.HasValue a m) (hb : Binary64.HasValue b n) (hdiv : op = .div → n ≠ 0 ∧ n ∣ m)
    (hle : |op.applyInt m n| ≤ 2 ^ 53) :
    Binary64.HasValue (op.apply a b) (op.applyInt m n) := by
  obtain ⟨c, hc⟩ := Binary64.exists_hasValue_int hle
  cases op with
  | add =>
    rw [applyInt, Int.cast_add] at hc ⊢
    exact ha.add hb hc
  | sub =>
    rw [applyInt, Int.cast_sub] at hc ⊢
    exact ha.sub hb hc
  | mul =>
    rw [applyInt, Int.cast_mul] at hc ⊢
    exact ha.mul hb hc
  | div =>
    obtain ⟨hn, hdvd⟩ := hdiv rfl
    have hn' : (n : ℚ) ≠ 0 := Int.cast_ne_zero.mpr hn
    rw [applyInt, Int.cast_div hdvd hn'] at hc ⊢
    exact ha.div hb hn' hc

/-- **An expression of whole numbers has its integer value**, if every value on the way is at most
`2 ^ 53` and every division comes out even.

**Proof sketch.** Induction on the expression. A whole number is the integer that its digits spell
and is read exactly (`Decimal.hasValue_toFloat`); a sign, a pair of parentheses and an operation are
exact if their operands are (`Sign.hasValue_apply`, `Operator.hasValue_apply`). -/
theorem Expr.hasValue_eval {e : Expr} (hwhole : e.IsWhole) (hexact : e.IsExact) :
    Binary64.HasValue e.eval e.evalInt := by
  induction e with
  | number d =>
    have hvalue : ((number d).evalInt : ℚ) = d.value := by
      have hexponent : d.exponent = 0 := hwhole
      rw [Decimal.value, hexponent, zpow_zero, mul_one, evalInt, Int.cast_natCast]
    obtain ⟨v, hv⟩ := Binary64.exists_hasValue_int hexact
    rw [hvalue] at hv ⊢
    exact Decimal.hasValue_toFloat hv
  | signed s e ih => exact s.hasValue_apply (ih hwhole hexact.1)
  | paren e ih => exact ih hwhole hexact
  | binary op l r ihl ihr =>
    obtain ⟨hl, hr, hdiv, hle⟩ := hexact
    exact op.hasValue_apply (ihl hwhole.1 hl) (ihr hwhole.2 hr) hdiv hle

/-! ## Texts -/

/-- The characters of a number are those of the text it was found in.

**Proof sketch.** Induction along the scan. A number consists of its first character and of some of
those that follow, and any other token that is found later comes from what is left. -/
lemma Token.mem_of_number_mem_scan {cs more : List Char} {c x : Char}
    (h : number c more ∈ scan cs) (hx : x ∈ c :: more) : x ∈ cs := by
  fun_induction scan cs with
  | case1 => exact absurd h List.not_mem_nil
  | case2 cs ih => exact List.mem_cons_of_mem _ (ih h)
  | case3 d cs _ _ ih =>
    rcases List.mem_cons.mp h with heq | h
    · obtain ⟨rfl, rfl⟩ := Token.number.inj heq
      exact List.cons_subset_cons _ (List.takeWhile_subset isNumeric) hx
    · exact List.mem_cons_of_mem _ ((List.dropWhile_suffix isNumeric).subset (ih h))
  | case4 d cs _ _ ih =>
    rcases List.mem_cons.mp h with heq | h
    · exact absurd heq.symm (ofSymbol_ne_number d c more)
    · exact List.mem_cons_of_mem _ (ih h)

/-- Without points all numbers are whole.

**Proof sketch.** Induction on the derivation. The numbers of a part are among those of the whole,
and a run without a point has nothing after one, so that its exponent is zero. -/
lemma Derives.isWhole {r : Rank} {ts : List Token} {e : Expr} (h : Derives r ts e)
    (hpoint : ∀ c more, Token.number c more ∈ ts → '.' ∉ c :: more) : e.IsWhole := by
  induction h with
  | @number c more run _ =>
    have hno : '.' ∉ c :: more := hpoint c more (List.mem_singleton.mpr rfl)
    have hdrop : (c :: more).dropWhile (· != '.') = [] :=
      List.dropWhile_eq_nil_iff.mpr fun x hx => bne_iff_ne.mpr (ne_of_mem_of_not_mem hx hno)
    rw [Expr.IsWhole, Decimal.ofRun, hdrop]
    rfl
  | signed s _ ih => exact ih fun c more hmem => hpoint c more (List.mem_cons_of_mem _ hmem)
  | paren _ ih => exact ih fun c more hmem => hpoint c more (by simp [hmem])
  | operand _ ih => exact ih hpoint
  | times op _ _ _ ihl ihr =>
    exact ⟨ihl fun c more hmem => hpoint c more (List.mem_append_left _ hmem),
      ihr fun c more hmem => hpoint c more (by simp [hmem])⟩
  | product _ ih => exact ih hpoint
  | plus op _ _ _ ihl ihr =>
    exact ⟨ihl fun c more hmem => hpoint c more (List.mem_append_left _ hmem),
      ihr fun c more hmem => hpoint c more (by simp [hmem])⟩

namespace Expr

/-- `e.Spelled text` says that the text is the expression `e` of the grammar, once the parentheses
that it leaves open are closed at its end. -/
def Spelled (e : Expr) (text : List Char) : Prop :=
  ∃ ts, Token.Spells ts (text ++ List.replicate (text.count '(' - text.count ')') ')') ∧
    Derives .sum ts e

/-- The number of parentheses that are open at the end is the only one that can be missing.

**Proof sketch.** Parentheses at the end of a text are tokens at the end of its tokens, and by
counting only the number of those that are missing can close it (`count_of_derives_closed`). -/
lemma spelled_iff {text : List Char} {e : Expr} :
    e.Spelled text ↔ ∃ k, Derives .sum (scan text ++ List.replicate k .closeParen) e := by
  constructor
  · rintro ⟨ts, hts, hd⟩
    rw [Token.spells_iff, Token.scan_append_closing] at hts
    exact ⟨_, hts ▸ hd⟩
  · rintro ⟨k, hd⟩
    have hk := count_of_derives_closed hd
    refine ⟨_, Token.spells_iff.mpr rfl, ?_⟩
    rw [Token.scan_append_closing, show text.count '(' - text.count ')' = k by omega]
    exact hd

/-- A text is one expression at most.

**Proof sketch.** The parser accepts the text as either expression, with as many levels as the
higher of them has, and it accepts a text as one expression only. -/
lemma Spelled.unique {text : List Char} {e e' : Expr} (h : e.Spelled text) (h' : e'.Spelled text) :
    e = e' := by
  obtain ⟨k, hd⟩ := spelled_iff.mp h
  obtain ⟨k', hd'⟩ := spelled_iff.mp h'
  have hparse := parse_eq_ok_iff.mpr ⟨k, hd, le_max_left e.height e'.height⟩
  have hparse' := parse_eq_ok_iff.mpr ⟨k', hd', le_max_right e.height e'.height⟩
  exact Except.ok.inj (hparse.symm.trans hparse')

end Expr

/-- **Whole numbers are worked out as integers.** A text that has a value is one expression of the
grammar, once closed. If no number in it has a point, and if on the way to its integer value there
is no number beyond `2 ^ 53` and no division by zero or with a remainder, then the value of the text
is finite and this integer.

**Proof sketch.** A text with a value is an expression once closed (`derives_of_evaluate`), and no
other one (`Expr.Spelled.unique`). Its numbers consist of characters of the text
(`Token.mem_of_number_mem_scan`), so they have no points and are whole (`Derives.isWhole`), and the
expression is worked out exactly (`Expr.hasValue_eval`). -/
theorem evaluate_whole {text : List Char} {v : Float} (haccepted : evaluate text = .ok v)
    (hpoint : '.' ∉ text) :
    ∃ e : Expr, (∀ e', e'.Spelled text ↔ e' = e) ∧ (e.IsExact → Binary64.HasValue v e.evalInt) := by
  obtain ⟨k, e, hd, -, rfl⟩ := derives_of_evaluate haccepted
  have hspelled : e.Spelled text := Expr.spelled_iff.mpr ⟨k, hd⟩
  have hwhole : e.IsWhole := hd.isWhole fun c more hmem hmore => by
    rcases List.mem_append.mp hmem with hmem | hmem
    · exact hpoint (Token.mem_of_number_mem_scan hmem hmore)
    · exact Token.noConfusion (List.eq_of_mem_replicate hmem)
  refine ⟨e, fun e' => ⟨fun h => h.unique hspelled, ?_⟩, Expr.hasValue_eval hwhole⟩
  rintro rfl
  exact hspelled

/-- The general result where `2 ^ 53` is reached and divided by a negative number, with a
parenthesis left open. -/
theorem evaluate_whole_quotient :
    evaluate "(9007199254740991+1)/-(2".toList = .ok (-4503599627370496) ∧
    '.' ∉ "(9007199254740991+1)/-(2".toList ∧
    ∃ e : Expr, (∀ e', e'.Spelled "(9007199254740991+1)/-(2".toList ↔ e' = e) ∧ e.IsExact ∧
      Binary64.HasValue (-4503599627370496) (-4503599627370496) := by
  have haccepted : evaluate "(9007199254740991+1)/-(2".toList = .ok (-4503599627370496) := by
    decide +kernel
  have hpoint : '.' ∉ "(9007199254740991+1)/-(2".toList := by decide
  obtain ⟨e, honly, hvalue⟩ := evaluate_whole haccepted hpoint
  have hparse : Expr.parse 256 "(9007199254740991+1)/-(2".toList = .ok (.binary .div
      (.paren (.binary .add (.number ⟨9007199254740991, 0⟩) (.number ⟨1, 0⟩)))
      (.signed .minus (.paren (.number ⟨2, 0⟩)))) := by decide +kernel
  obtain ⟨k, hd, -⟩ := Expr.parse_eq_ok_iff.mp hparse
  obtain rfl := (honly _).mp (Expr.spelled_iff.mpr ⟨k, hd⟩)
  have hexact : (Expr.binary .div
      (.paren (.binary .add (.number ⟨9007199254740991, 0⟩) (.number ⟨1, 0⟩)))
      (.signed .minus (.paren (.number ⟨2, 0⟩)))).IsExact := by
    simp [Expr.IsExact, Expr.evalInt, Operator.applyInt, Sign.applyInt]
  refine ⟨haccepted, hpoint, _, honly, hexact, ?_⟩
  have h := hvalue hexact
  norm_num [Expr.evalInt, Operator.applyInt, Sign.applyInt] at h
  exact h

end PocketCalculator
