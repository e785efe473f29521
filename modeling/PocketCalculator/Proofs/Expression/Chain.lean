import Mathlib.Data.Nat.Basic
import Mathlib.Data.Nat.Init
import Mathlib.Tactic.Common
import PocketCalculator.Expression.Parser
import PocketCalculator.Proofs.Expression.Grammar

/-!
# Chains of operands

A chain is read link by link. Its reader counts the links down along a list of tokens; as every link
uses up a token, the count never runs out, and reading a chain is a loop that goes on as long as an
operator of the wanted rank follows. What one link keeps, a whole chain keeps.

## Main definitions

* `Parser.Consumes` — a parser that uses up a token whenever it succeeds.
* `Parser.links` — the loop of a chain.

## Main results

* `Parser.links_cons` — one turn of the loop.
* `Parser.links_cases` — the two ways in which the loop ends, where what each link keeps holds.
* `Parser.links_invariant` — what each link keeps holds when the loop ends, and no operator of the
  rank is left then.
* `Parser.operand_cases` — the three ways in which an operand is read.
* `Parser.consumes_operand`, `Parser.consumes_sum` — every level uses up tokens.
-/

namespace PocketCalculator.Parser

/-- A parser uses up a token at least whenever it succeeds, and the rest is what follows. -/
def Consumes (item : Parser) : Prop :=
  ∀ ⦃ts : List Token⦄ ⦃e : Expr⦄ ⦃rest : List Token⦄, item ts = .ok (e, rest) →
    ∃ used, used ≠ [] ∧ ts = used ++ rest

/-- The loop of a chain: joins further operands to `left` as long as there are any. -/
def links (operator? : Token → Option Operator) (item : Parser) (left : Expr) (ts : List Token) :
    Except CalcError (Expr × List Token) :=
  chainFrom operator? item ts left ts

variable {operator? : Token → Option Operator} {item : Parser}

/-! ## One link -/

/-- What is left is shorter. -/
lemma Consumes.length_lt (hitem : Consumes item) {ts rest : List Token} {e : Expr}
    (h : item ts = .ok (e, rest)) : rest.length < ts.length := by
  obtain ⟨used, hne, rfl⟩ := hitem h
  have := List.length_pos_iff.mpr hne
  rw [List.length_append]
  omega

/-- The count of links does not matter as long as it reaches the number of tokens.

**Proof sketch.** Induction on the first count. Every link takes one off both counts and at least
one token off the list, so both still reach the number of tokens. -/
lemma chainFrom_bound (hitem : Consumes item) (bound : List Token) :
    ∀ (bound' : List Token) (left : Expr) (ts : List Token), ts.length ≤ bound.length →
      ts.length ≤ bound'.length →
      chainFrom operator? item bound left ts = chainFrom operator? item bound' left ts := by
  induction bound with
  | nil =>
    intro bound' left ts hts _
    obtain rfl : ts = [] := List.length_eq_zero_iff.mp (Nat.le_zero.mp hts)
    cases bound' <;> rfl
  | cons b bound ih =>
    intro bound' left ts hts hts'
    cases ts with
    | nil => cases bound' <;> rfl
    | cons t ts =>
      obtain ⟨b', bound', rfl⟩ : ∃ b' bs, bound' = b' :: bs := by
        cases bound' with
        | nil => simp at hts'
        | cons b' bs => exact ⟨b', bs, rfl⟩
      simp only [chainFrom]
      cases operator? t with
      | none => rfl
      | some op =>
        cases hi : item ts with
        | error _ => rfl
        | ok r =>
          have hlt := hitem.length_lt hi
          simp only [List.length_cons] at hts hts'
          exact ih bound' _ _ (by omega) (by omega)

/-- Without tokens the loop ends. -/
@[simp]
lemma links_nil (left : Expr) : links operator? item left [] = .ok (left, []) :=
  rfl

/-- **One turn of the loop.**

**Proof sketch.** One turn of the loop takes the first token off the count, and the shorter count
may be replaced by the number of tokens that are left (`chainFrom_bound`). -/
lemma links_cons (hitem : Consumes item) (left : Expr) (t : Token) (ts : List Token) :
    links operator? item left (t :: ts) =
      match operator? t with
      | none => .ok (left, t :: ts)
      | some op =>
        match item ts with
        | .error e => .error e
        | .ok (right, rest) => links operator? item (.binary op left right) rest := by
  simp only [links, chainFrom]
  cases operator? t with
  | none => rfl
  | some op =>
    cases hi : item ts with
    | error _ => rfl
    | ok r =>
      exact chainFrom_bound hitem ts r.2 _ _ (Nat.le_of_lt (hitem.length_lt hi)) le_rfl

/-- The loop ends where no operator of the rank follows. -/
lemma links_of_stop (hitem : Consumes item) (left : Expr) {ts : List Token}
    (h : ∀ t ∈ ts.head?, operator? t = none) : links operator? item left ts = .ok (left, ts) := by
  cases ts with
  | nil => rfl
  | cons t ts => rw [links_cons hitem, h t rfl]

/-- The loop goes on with an operator and an operand. -/
lemma links_of_link (hitem : Consumes item) (left : Expr) {t : Token} {ts rest : List Token}
    {op : Operator} {right : Expr} (hop : operator? t = some op)
    (hright : item ts = .ok (right, rest)) :
    links operator? item left (t :: ts) = links operator? item (.binary op left right) rest := by
  rw [links_cons hitem, hop]
  simp only [hright]

/-! ## Whole chains -/

/-- **How the loop ends**: either where no operator of the rank follows, or with an operand that
fails. What each link keeps holds there.

**Proof sketch.** Induction on the number of tokens left, which every link makes smaller. -/
theorem links_cases (hitem : Consumes item) {P : Expr → List Token → Prop}
    (step : ∀ ⦃left : Expr⦄ ⦃t : Token⦄ ⦃ts : List Token⦄ ⦃op : Operator⦄ ⦃right : Expr⦄
      ⦃rest : List Token⦄, P left (t :: ts) → operator? t = some op →
        item ts = .ok (right, rest) → P (.binary op left right) rest)
    {left : Expr} {ts : List Token} (h₀ : P left ts) :
    (∃ e rest, links operator? item left ts = .ok (e, rest) ∧ P e rest ∧
      ∀ t ∈ rest.head?, operator? t = none) ∨
    (∃ e t rest op err, links operator? item left ts = .error err ∧ P e (t :: rest) ∧
      operator? t = some op ∧ item rest = .error err) := by
  induction hn : ts.length using Nat.strong_induction_on generalizing left ts with
  | _ n ih =>
    cases ts with
    | nil => exact .inl ⟨left, [], links_nil left, h₀, by simp⟩
    | cons t ts =>
      rw [links_cons hitem]
      cases hop : operator? t with
      | none => exact .inl ⟨left, t :: ts, rfl, h₀, by simpa using hop⟩
      | some op =>
        cases hi : item ts with
        | error err => exact .inr ⟨left, t, ts, op, err, rfl, h₀, hop, hi⟩
        | ok r =>
          obtain ⟨right, mid⟩ := r
          have hlt := hitem.length_lt hi
          rw [List.length_cons] at hn
          exact ih mid.length (by omega) (step h₀ hop hi) rfl

/-- **What each link keeps, a chain keeps**, and the loop comes to an end only where no operator of
the rank follows.

**Proof sketch.** Of the two ways in which the loop ends (`links_cases`), the one with a failing
operand has no result. -/
theorem links_invariant (hitem : Consumes item) {P : Expr → List Token → Prop}
    (step : ∀ ⦃left : Expr⦄ ⦃t : Token⦄ ⦃ts : List Token⦄ ⦃op : Operator⦄ ⦃right : Expr⦄
      ⦃rest : List Token⦄, P left (t :: ts) → operator? t = some op →
        item ts = .ok (right, rest) → P (.binary op left right) rest)
    {left e : Expr} {ts rest : List Token} (h : links operator? item left ts = .ok (e, rest))
    (h₀ : P left ts) : P e rest ∧ ∀ t ∈ rest.head?, operator? t = none := by
  rcases links_cases hitem step h₀ with ⟨e', rest', hend, hP, hstop⟩ | ⟨_, _, _, _, err, hend, -⟩
  · rw [h, Except.ok.injEq, Prod.mk.injEq] at hend
    obtain ⟨rfl, rfl⟩ := hend
    exact ⟨hP, hstop⟩
  · rw [h] at hend
    exact absurd hend (by simp)

/-- A chain is its first operand and then the loop. -/
lemma chain_of_ok {ts rest : List Token} {left : Expr} (h : item ts = .ok (left, rest)) :
    chain operator? item ts = links operator? item left rest := by
  simp only [chain, h]
  rfl

/-- A chain that was read has a first operand, from which the loop came to its end. -/
lemma exists_of_chain {ts rest : List Token} {e : Expr}
    (h : chain operator? item ts = .ok (e, rest)) :
    ∃ left mid, item ts = .ok (left, mid) ∧ links operator? item left mid = .ok (e, rest) := by
  cases hi : item ts with
  | error _ => simp [chain, hi] at h
  | ok r => exact ⟨r.1, r.2, rfl, by rwa [chain_of_ok hi] at h⟩

/-- A chain uses up tokens if its operands do.

**Proof sketch.** The first operand uses up tokens, and that some have been used up and the rest is
what follows is kept by every link. -/
lemma consumes_chain (hitem : Consumes item) : Consumes (chain operator? item) := by
  intro ts e rest h
  obtain ⟨left, mid, hleft, hlinks⟩ := exists_of_chain h
  refine (links_invariant hitem (P := fun _ rest => ∃ used, used ≠ [] ∧ ts = used ++ rest)
    ?_ hlinks (hitem hleft)).1
  rintro l t ts' op r rest' ⟨used, hne, rfl⟩ _ hr
  obtain ⟨used', -, rfl⟩ := hitem hr
  exact ⟨used ++ t :: used', by simp, by simp⟩

/-- What holds of the rest after every operand holds of the rest after a chain, which does not begin
with an operator of the rank.

**Proof sketch.** It holds after the first operand, every link ends with an operand of its own, and
the loop ends only where no operator of the rank follows (`links_invariant`). -/
lemma chain_rest (hitem : Consumes item) {Q : List Token → Prop}
    (hrest : ∀ ⦃ts : List Token⦄ ⦃e : Expr⦄ ⦃rest : List Token⦄, item ts = .ok (e, rest) → Q rest)
    {ts rest : List Token} {e : Expr} (h : chain operator? item ts = .ok (e, rest)) :
    Q rest ∧ ∀ t ∈ rest.head?, operator? t = none := by
  obtain ⟨left, mid, hleft, hlinks⟩ := exists_of_chain h
  exact links_invariant hitem (P := fun _ rest => Q rest) (fun _ _ _ _ _ _ _ _ hr => hrest hr)
    hlinks (hrest hleft)

/-! ## The three levels -/

/-- An optional closing parenthesis is taken off the front. -/
lemma skipClosing_suffix (ts : List Token) : ∃ used, ts = used ++ skipClosing ts := by
  unfold skipClosing
  split
  · exact ⟨[.closeParen], rfl⟩
  · exact ⟨[], rfl⟩

/-- **How an operand is read**: it is a signed operand, a sum in parentheses of which the closing
one may be missing, or a number. What stands inside it is read with less room.

**Proof sketch.** The first token decides. A sign and an opening parenthesis pass on what is read
after them, with less room; a number is read if its run is a decimal; any other token begins no
operand. -/
theorem operand_cases {limit room : ℕ} {ts rest : List Token} {e : Expr}
    (h : operand limit (room + 1) ts = .ok (e, rest)) :
    (∃ s us e', ts = Sign.token s :: us ∧ operand limit room us = .ok (e', rest) ∧
      e = .signed s e') ∨
    (∃ us e' mid, ts = .openParen :: us ∧ sum limit room us = .ok (e', mid) ∧ e = .paren e' ∧
      rest = skipClosing mid) ∨
    ∃ c more d, ts = .number c more :: rest ∧ Decimal.ofText? (c :: more) = some d ∧
      e = .number d := by
  have hsigned : ∀ (s : Sign) (us : List Token),
      operand limit (room + 1) (s.token :: us) = .ok (e, rest) →
      ∃ e', operand limit room us = .ok (e', rest) ∧ e = .signed s e' := by
    intro s us hs
    cases hi : operand limit room us with
    | error _ => cases s <;> simp [operand, Sign.token, hi, Except.map] at hs
    | ok r =>
      obtain ⟨rfl, rfl⟩ : Expr.signed s r.1 = e ∧ r.2 = rest := by
        cases s <;> simpa [operand, Sign.token, hi, Except.map] using hs
      exact ⟨r.1, rfl, rfl⟩
  cases ts with
  | nil => simp [operand] at h
  | cons t ts =>
    cases t with
    | plus =>
      obtain ⟨e', hi, he⟩ := hsigned .plus ts h
      exact .inl ⟨.plus, ts, e', rfl, hi, he⟩
    | minus =>
      obtain ⟨e', hi, he⟩ := hsigned .minus ts h
      exact .inl ⟨.minus, ts, e', rfl, hi, he⟩
    | openParen =>
      cases hi : sumOf (operand limit room) ts with
      | error _ => simp [operand, hi, Except.map] at h
      | ok r =>
        simp only [operand, hi, Except.map, Except.ok.injEq, Prod.mk.injEq] at h
        exact .inr (.inl ⟨ts, r.1, r.2, rfl, hi, h.1.symm, h.2.symm⟩)
    | number c more =>
      simp only [operand, number] at h
      split at h
      · rename_i d hd
        simp only [Except.ok.injEq, Prod.mk.injEq] at h
        obtain ⟨rfl, rfl⟩ := h
        exact .inr (.inr ⟨c, more, d, rfl, Numeral.readDecimal_eq_ok_iff.mp hd, rfl⟩)
      · simp at h
    | times => simp [operand] at h
    | divide => simp [operand] at h
    | closeParen => simp [operand] at h
    | stray c => simp [operand] at h

/-- **Operands use up tokens**, whatever the room.

**Proof sketch.** Induction on the room. In each of the three ways in which an operand is read
(`operand_cases`) its first token is used up, and what is read inside uses up further tokens and
leaves what follows. -/
theorem consumes_operand (limit room : ℕ) : Consumes (operand limit room) := by
  induction room with
  | zero =>
    intro ts e rest h
    simp [operand] at h
  | succ room ih =>
    intro ts e rest h
    rcases operand_cases h with ⟨s, us, e', rfl, hi, -⟩ | ⟨us, e', mid, rfl, hi, -, rfl⟩ |
      ⟨c, more, d, rfl, -, -⟩
    · obtain ⟨used, -, rfl⟩ := ih hi
      exact ⟨s.token :: used, by simp, rfl⟩
    · obtain ⟨used, -, hused⟩ := consumes_chain (consumes_chain ih) hi
      obtain ⟨closing, hclosing⟩ := skipClosing_suffix mid
      refine ⟨.openParen :: (used ++ closing), by simp, ?_⟩
      rw [List.cons_append, List.append_assoc, ← hclosing, hused]
    · exact ⟨[.number c more], by simp, rfl⟩

/-- Products use up tokens. -/
lemma consumes_product (limit room : ℕ) : Consumes (product limit room) :=
  consumes_chain (consumes_operand limit room)

/-- Sums use up tokens. -/
lemma consumes_sum (limit room : ℕ) : Consumes (sum limit room) :=
  consumes_chain (consumes_product limit room)

/-- After a sum no operator follows.

**Proof sketch.** After a product no operator of products follows, and this is kept until the sum
ends, where no operator of sums follows either (`chain_rest`, once for each of the two levels). -/
theorem sum_stops {limit room : ℕ} {ts rest : List Token} {e : Expr}
    (h : sum limit room ts = .ok (e, rest)) :
    ∀ t ∈ rest.head?, multiplicative? t = none ∧ additive? t = none := by
  have hproduct : ∀ ⦃ts : List Token⦄ ⦃e : Expr⦄ ⦃rest : List Token⦄,
      product limit room ts = .ok (e, rest) → ∀ t ∈ rest.head?, multiplicative? t = none :=
    fun _ _ _ hp => (chain_rest (consumes_operand limit room) (Q := fun _ => True)
      (fun _ _ _ _ => trivial) hp).2
  obtain ⟨hmul, hadd⟩ := chain_rest (consumes_product limit room) hproduct h
  exact fun t ht => ⟨hmul t ht, hadd t ht⟩

end PocketCalculator.Parser
