import Mathlib.Data.Nat.Basic
import Mathlib.Tactic.Common
import PocketCalculator.Proofs.Expression.Chain
import PocketCalculator.Proofs.Expression.Grammar
import PocketCalculator.Proofs.Expression.Spelling

/-!
# Recognising expressions

The parser lets closing parentheses be missing, so that a text could be read in several ways. It
reads each text in one way only: an operand in parentheses that is not closed goes as far as it can,
and then nothing that the parser could go on with is left. So it accepts a text exactly if the text
is an expression of the grammar once all parentheses that are open at its end have been closed.

## Main definitions

* `Parser.Reads` — the parser finds an expression at the front of a token list.
* `Parser.Accounts` — an expression uses up the front of a token list, with parentheses that it may
  leave open only where nothing can follow.
* `Parser.IsLevel` — chains of operands of one rank are a level of the grammar.

## Main results

* `Parser.reads_of_derives` — the parser finds every expression of the grammar, also when closing
  parentheses are missing at its end.
* `Parser.accounts_sum` — what the parser finds is an expression of the grammar.
* `Expr.parse_eq_ok_iff` — the texts that the parser accepts, and as what.
* `evaluate_eq_ok_iff` — the texts that have a value, and which one.
-/

namespace PocketCalculator.Parser

/-! ## Operators -/

/-- The operators of products are those that join operands. -/
lemma multiplicative?_eq_some_iff {t : Token} {op : Operator} :
    multiplicative? t = some op ↔ t = op.token ∧ op.rank = .product := by
  cases t <;> cases op <;> simp [multiplicative?, Operator.token, Operator.rank]

/-- The operators of sums are those that join products. -/
lemma additive?_eq_some_iff {t : Token} {op : Operator} :
    additive? t = some op ↔ t = op.token ∧ op.rank = .sum := by
  cases t <;> cases op <;> simp [additive?, Operator.token, Operator.rank]

/-- A closing parenthesis is no operator. -/
lemma no_operator_closeParen {rest : List Token} :
    ∀ t ∈ (Token.closeParen :: rest).head?, multiplicative? t = none ∧ additive? t = none := by
  intro t ht
  obtain rfl : Token.closeParen = t := by simpa using ht
  exact ⟨rfl, rfl⟩

/-! ## What is derived is read -/

/-- A token that an operand in parentheses cannot be followed by if it is not closed. -/
def Stops (t : Token) : Prop :=
  t ≠ .closeParen ∧ multiplicative? t = none ∧ additive? t = none

/-- Nothing is skipped if no closing parenthesis follows. -/
lemma skipClosing_eq_self {rest : List Token} (h : ∀ t ∈ rest.head?, t ≠ .closeParen) :
    skipClosing rest = rest := by
  unfold skipClosing
  split
  · exact absurd rfl (h _ rfl)
  · rfl

/-- Closing parentheses at the end of a list do not reach back before another token.

**Proof sketch.** The token is not among the closing parentheses, so it stands in what comes before
them, and the two ways of splitting the list have the same beginning. -/
lemma cut_before_closing {used l us : List Token} {t : Token} {k : ℕ}
    (h : used ++ List.replicate k .closeParen = l ++ t :: us) (ht : t ≠ .closeParen) :
    ∃ rest, used = l ++ t :: rest ∧ rest ++ List.replicate k .closeParen = us := by
  have hmem : t ∉ List.replicate k Token.closeParen :=
    fun hmem => ht (List.eq_of_mem_replicate hmem)
  rcases List.append_eq_append_iff.mp h with ⟨mid, -, hclosing⟩ | ⟨mid, rfl, htail⟩
  · exact absurd (by rw [hclosing]; simp) hmem
  · cases mid with
    | nil =>
      rw [List.nil_append] at htail
      exact absurd (by rw [← htail]; simp) hmem
    | cons t' mid =>
      rw [List.cons_append, List.cons.injEq] at htail
      obtain ⟨rfl, rfl⟩ := htail
      exact ⟨mid, rfl, rfl⟩

/-- `Reads limit room r input e rest` says that the parser of rank `r` finds `e` at the front of
`input` and has `rest` left. For a chain it says that `e` is where the loop gets to before `rest`;
whether it ends there depends on what `rest` begins with. -/
def Reads (limit room : ℕ) : Rank → List Token → Expr → List Token → Prop
  | .operand, input, e, rest => operand limit room input = .ok (e, rest)
  | .product, input, e, rest =>
    product limit room input = links multiplicative? (operand limit room) e rest
  | .sum, input, e, rest =>
    (∀ t ∈ rest.head?, multiplicative? t = none) →
      sum limit room input = links additive? (product limit room) e rest

/-- **What is derived is read**, if there is room for it: the parser finds an expression of the
grammar at the front of what it is given. The closing parentheses at the end of the expression may
be missing from the input, if nothing follows that the parser could read on with.

**Proof sketch.** Induction on the derivation. Missing parentheses are missing at the end of the
last part of an expression, for operators and opening parentheses are never missing. An operand in
parentheses then ends where the parser stops, and its closing parenthesis is not asked for. -/
theorem reads_of_derives {r : Rank} {ts : List Token} {e : Expr} (h : Derives r ts e)
    {limit room : ℕ} (hroom : e.height ≤ room) {used rest : List Token} {k : ℕ}
    (hused : used ++ List.replicate k .closeParen = ts)
    (hk : k = 0 ∨ ∀ t ∈ rest.head?, Stops t) : Reads limit room r (used ++ rest) e rest := by
  induction h generalizing room used rest k with
  | number run _ =>
    obtain ⟨room, rfl⟩ : ∃ n, room = n + 1 := ⟨room - 1, by simp only [Expr.height] at hroom; omega⟩
    obtain ⟨used, rfl, htail⟩ := cut_before_closing (l := []) hused (by simp)
    obtain rfl := (List.append_eq_nil_iff.mp htail).1
    have hread := Numeral.readDecimal_eq_ok_iff.mpr (Decimal.ofText?_of_isNumber run)
    simp only [Reads, List.nil_append, List.cons_append, operand, number, hread]
  | @signed s ts e _ ih =>
    obtain ⟨room, rfl⟩ : ∃ n, room = n + 1 := ⟨room - 1, by simp only [Expr.height] at hroom; omega⟩
    obtain ⟨used, rfl, htail⟩ := cut_before_closing (l := []) hused s.token_ne_paren.2
    have hroom : e.height ≤ room := by simp only [Expr.height] at hroom; omega
    have hinner : operand limit room (used ++ rest) = .ok (e, rest) := ih hroom htail hk
    cases s <;>
      simp only [Reads, List.nil_append, List.cons_append, Sign.token, operand, hinner, Except.map]
  | @paren ts e _ ih =>
    obtain ⟨room, rfl⟩ : ∃ n, room = n + 1 := ⟨room - 1, by simp only [Expr.height] at hroom; omega⟩
    obtain ⟨used, rfl, htail⟩ := cut_before_closing (l := []) hused (by decide)
    have hroom : e.height ≤ room := by simp only [Expr.height] at hroom; omega
    change used ++ List.replicate k .closeParen = ts ++ [.closeParen] at htail
    -- the sum inside is followed by its closing parenthesis or, if that is missing, by the rest
    obtain ⟨rest', hsum, hskip⟩ : ∃ rest', sumOf (operand limit room) (used ++ rest) =
        .ok (e, rest') ∧ skipClosing rest' = rest := by
      cases k with
      | zero =>
        refine ⟨.closeParen :: rest, ?_, rfl⟩
        rw [List.replicate_zero, List.append_nil] at htail
        have hreads : Reads limit room .sum (ts ++ .closeParen :: rest) e (.closeParen :: rest) :=
          ih hroom (k := 0) (List.append_nil ts) (.inl rfl)
        rw [htail, List.append_assoc]
        exact (hreads fun t ht => (no_operator_closeParen t ht).1).trans
          (links_of_stop (consumes_product limit room) e
            fun t ht => (no_operator_closeParen t ht).2)
      | succ k =>
        have hstops := hk.resolve_left (Nat.succ_ne_zero k)
        refine ⟨rest, ?_, skipClosing_eq_self fun t ht => (hstops t ht).1⟩
        rw [List.replicate_succ', ← List.append_assoc] at htail
        have hreads : Reads limit room .sum (used ++ rest) e rest :=
          ih hroom (List.append_cancel_right htail) (.inr hstops)
        exact (hreads fun t ht => (hstops t ht).2.1).trans
          (links_of_stop (consumes_product limit room) e fun t ht => (hstops t ht).2.2)
    simp only [Reads, List.nil_append, List.cons_append, operand, hsum, Except.map, hskip]
  | operand _ ih => exact chain_of_ok (ih hroom hused hk)
  | @times op hop ls rs l r _ _ ihl ihr =>
    obtain ⟨used, rfl, htail⟩ := cut_before_closing hused op.token_ne_paren.2
    rw [List.append_assoc, List.cons_append]
    have hl : product limit room (ls ++ op.token :: (used ++ rest)) =
        links multiplicative? (operand limit room) l (op.token :: (used ++ rest)) :=
      ihl (le_trans (le_max_left _ _) hroom) (k := 0) (List.append_nil ls) (.inl rfl)
    have hr : operand limit room (used ++ rest) = .ok (r, rest) :=
      ihr (le_trans (le_max_right _ _) hroom) htail hk
    exact hl.trans (links_of_link (consumes_operand limit room) l
      (multiplicative?_eq_some_iff.mpr ⟨rfl, hop⟩) hr)
  | product _ ih =>
    intro hstop
    exact chain_of_ok ((ih hroom hused hk).trans
      (links_of_stop (consumes_operand limit room) _ hstop))
  | @plus op hop ls rs l r _ _ ihl ihr =>
    intro hstop
    obtain ⟨used, rfl, htail⟩ := cut_before_closing hused op.token_ne_paren.2
    rw [List.append_assoc, List.cons_append]
    have hop' : ∀ t ∈ (op.token :: (used ++ rest)).head?, multiplicative? t = none := by
      intro t ht
      obtain rfl : op.token = t := by simpa using ht
      cases op <;> first | rfl | exact absurd hop (by decide)
    have hl : sum limit room (ls ++ op.token :: (used ++ rest)) =
        links additive? (product limit room) l (op.token :: (used ++ rest)) :=
      ihl (le_trans (le_max_left _ _) hroom) (k := 0) (List.append_nil ls) (.inl rfl) hop'
    have hr : product limit room (used ++ rest) = .ok (r, rest) :=
      (ihr (le_trans (le_max_right _ _) hroom) htail hk).trans
        (links_of_stop (consumes_operand limit room) r hstop)
    exact hl.trans (links_of_link (consumes_product limit room) l
      (additive?_eq_some_iff.mpr ⟨rfl, hop⟩) hr)

/-- A sum of the grammar is read as far as no operator follows it.

**Proof sketch.** The parser gets to the rest (`reads_of_derives`), and both loops end there, since
no operator follows. -/
lemma sum_of_derives {limit room : ℕ} {used rest : List Token} {e : Expr} {k : ℕ}
    (h : Derives .sum (used ++ List.replicate k .closeParen) e) (hroom : e.height ≤ room)
    (hk : k = 0 ∨ ∀ t ∈ rest.head?, Stops t)
    (hstop : ∀ t ∈ rest.head?, multiplicative? t = none ∧ additive? t = none) :
    sum limit room (used ++ rest) = .ok (e, rest) := by
  have hreads : Reads limit room .sum (used ++ rest) e rest := reads_of_derives h hroom rfl hk
  exact (hreads fun t ht => (hstop t ht).1).trans
    (links_of_stop (consumes_product limit room) e fun t ht => (hstop t ht).2)

/-! ## What is read is derived -/

/-- `Accounts r room ts e rest` says that `e` is an expression of rank `r` which uses up `ts` as far
as `rest`, once the parentheses that it leaves open are closed. It leaves parentheses open only if
`rest` has nothing that could be read on with. -/
def Accounts (r : Rank) (room : ℕ) (ts : List Token) (e : Expr) (rest : List Token) : Prop :=
  ∃ used k, ts = used ++ rest ∧ Derives r (used ++ List.replicate k .closeParen) e ∧
    e.height ≤ room ∧ (k = 0 ∨ ∀ t ∈ rest.head?, Stops t)

/-- A link of a chain: the left part is closed, since an operator follows it.

**Proof sketch.** An operator follows the left part. Nothing ends before an operator with
parentheses left open, so the left part is closed, and the rule of the grammar joins it to the right
part, which may leave some open. -/
lemma Accounts.link {ro ri : Rank} {room : ℕ} {ts₀ ts rest : List Token} {l r : Expr} {t : Token}
    {op : Operator} (hrule : ∀ {ls rs : List Token}, Derives ro ls l → Derives ri rs r →
      Derives ro (ls ++ t :: rs) (.binary op l r))
    (ht : ¬ Stops t) (hl : Accounts ro room ts₀ l (t :: ts)) (hr : Accounts ri room ts r rest) :
    Accounts ro room ts₀ (.binary op l r) rest := by
  obtain ⟨ls, k, rfl, hls, hlh, hk⟩ := hl
  obtain ⟨rs, k', rfl, hrs, hrh, hk'⟩ := hr
  obtain rfl : k = 0 := hk.resolve_right fun hstops => ht (hstops t rfl)
  rw [List.replicate_zero, List.append_nil] at hls
  refine ⟨ls ++ t :: rs, k', by simp, ?_, max_le hlh hrh, hk'⟩
  rw [List.append_assoc, List.cons_append]
  exact hrule hls hrs

/-- What is an expression of one kind by itself is one of the next kind too. -/
lemma Accounts.single {ro ri : Rank} {room : ℕ} {ts rest : List Token} {e : Expr}
    (hsingle : ∀ {ts : List Token} {e : Expr}, Derives ri ts e → Derives ro ts e)
    (h : Accounts ri room ts e rest) : Accounts ro room ts e rest := by
  obtain ⟨used, k, hused, hd, hh, hk⟩ := h
  exact ⟨used, k, hused, hsingle hd, hh, hk⟩

/-- Chains of what `item` reads, which is of rank `ri`, are of rank `ro`: this is a level of the
grammar, and `item` accounts for what it reads. -/
structure IsLevel (operator? : Token → Option Operator) (item : Parser) (ro ri : Rank)
    (room : ℕ) : Prop where
  /-- Each link uses up tokens. -/
  consumes : Consumes item
  /-- A chain may have one operand only. -/
  single : ∀ {ts : List Token} {e : Expr}, Derives ri ts e → Derives ro ts e
  /-- A chain goes on with an operator of the level, and nothing ends before one. -/
  rule : ∀ {t : Token} {op : Operator}, operator? t = some op → ¬ Stops t ∧
    ∀ {ls rs : List Token} {l r : Expr}, Derives ro ls l → Derives ri rs r →
      Derives ro (ls ++ t :: rs) (.binary op l r)
  /-- The operands are accounted for. -/
  sound : ∀ {ts rest : List Token} {e : Expr}, (∀ t ∈ ts, t.IsLexical) →
    item ts = .ok (e, rest) → Accounts ri room ts e rest

namespace IsLevel

variable {operator? : Token → Option Operator} {item : Parser} {ro ri : Rank} {room : ℕ}
  (h : IsLevel operator? item ro ri room)

include h

/-- One more link accounts for what it reads if its operand does.

**Proof sketch.** The tokens after the operator are among those that were there at first, so that
they are lexical and the operand accounts for what it reads. The rule of the level joins it to what
was read so far (`Accounts.link`). -/
lemma step {ts₀ ts rest : List Token} {l r : Expr} {t : Token} {op : Operator}
    (hts₀ : ∀ t ∈ ts₀, t.IsLexical) (hl : Accounts ro room ts₀ l (t :: ts))
    (hop : operator? t = some op) (hr : item ts = .ok (r, rest)) :
    Accounts ro room ts₀ (.binary op l r) rest := by
  have hts : ∀ u ∈ ts, u.IsLexical := by
    obtain ⟨used, -, rfl, -⟩ := hl
    exact fun u hu => hts₀ u (List.mem_append_right _ (List.mem_cons_of_mem _ hu))
  exact hl.link (h.rule hop).2 (h.rule hop).1 (h.sound hts hr)

/-- A chain accounts for what it reads if its operands do.

**Proof sketch.** The first operand is a chain of one, and the loop keeps accounting for all that
was read so far. -/
lemma accounts {ts rest : List Token} {e : Expr} (hts : ∀ t ∈ ts, t.IsLexical)
    (hchain : chain operator? item ts = .ok (e, rest)) : Accounts ro room ts e rest := by
  obtain ⟨left, mid, hleft, hlinks⟩ := exists_of_chain hchain
  have hfirst : Accounts ro room ts left mid := (h.sound hts hleft).single h.single
  exact (links_invariant h.consumes (P := Accounts ro room ts)
    (fun _ _ _ _ _ _ => h.step hts) hlinks hfirst).1

end IsLevel

/-- The links of products are those of the grammar. -/
lemma link_product {t : Token} {op : Operator} (h : multiplicative? t = some op) :
    ¬ Stops t ∧ ∀ {ls rs : List Token} {l r : Expr}, Derives .product ls l →
      Derives .operand rs r → Derives .product (ls ++ t :: rs) (.binary op l r) := by
  obtain ⟨rfl, hop⟩ := multiplicative?_eq_some_iff.mp h
  refine ⟨fun hstops => ?_, fun hl hr => .times op hop hl hr⟩
  rw [hstops.2.1] at h
  exact absurd h (by simp)

/-- The links of sums are those of the grammar. -/
lemma link_sum {t : Token} {op : Operator} (h : additive? t = some op) :
    ¬ Stops t ∧ ∀ {ls rs : List Token} {l r : Expr}, Derives .sum ls l →
      Derives .product rs r → Derives .sum (ls ++ t :: rs) (.binary op l r) := by
  obtain ⟨rfl, hop⟩ := additive?_eq_some_iff.mp h
  refine ⟨fun hstops => ?_, fun hl hr => .plus op hop hl hr⟩
  rw [hstops.2.2] at h
  exact absurd h (by simp)

section Levels

variable {limit room : ℕ} (hsound : ∀ {ts rest : List Token} {e : Expr}, (∀ t ∈ ts, t.IsLexical) →
    operand limit room ts = .ok (e, rest) → Accounts .operand room ts e rest)

include hsound

/-- Products are a level if operands are accounted for. -/
lemma isLevel_product :
    IsLevel multiplicative? (operand limit room) .product .operand room where
  consumes := consumes_operand limit room
  single := .operand
  rule := link_product
  sound := hsound

/-- Sums are a level if operands are accounted for. -/
lemma isLevel_sum : IsLevel additive? (product limit room) .sum .product room where
  consumes := consumes_product limit room
  single := .product
  rule := link_sum
  sound := (isLevel_product hsound).accounts

end Levels

/-- An operand in parentheses accounts for what it reads if the sum inside does. If the closing
parenthesis is there, none is missing inside; if it is not, one more is missing.

**Proof sketch.** If the closing parenthesis is there, the sum inside is closed, because nothing
ends before a closing parenthesis with others left open. If it is not, nothing follows that could be
read on with: no operator, as the sum has stopped (`sum_stops`), and no parenthesis. So one more may
be left open. -/
lemma Accounts.paren {limit room : ℕ} {ts rest : List Token} {e : Expr}
    (hsum : sum limit room ts = .ok (e, rest)) (h : Accounts .sum room ts e rest) :
    Accounts .operand (room + 1) (.openParen :: ts) (.paren e) (skipClosing rest) := by
  obtain ⟨used, k, rfl, hd, hh, hk⟩ := h
  have hheight : (Expr.paren e).height ≤ room + 1 := Nat.succ_le_succ hh
  by_cases hclosing : ∃ more, rest = .closeParen :: more
  · obtain ⟨more, rfl⟩ := hclosing
    obtain rfl : k = 0 := hk.resolve_right fun hstops => (hstops .closeParen rfl).1 rfl
    rw [List.replicate_zero, List.append_nil] at hd
    refine ⟨.openParen :: used ++ [.closeParen], 0, by simp [skipClosing], ?_, hheight, .inl rfl⟩
    rw [List.replicate_zero, List.append_nil]
    exact .paren hd
  · have hnot : ∀ t ∈ rest.head?, t ≠ .closeParen := by
      rintro t ht rfl
      cases rest with
      | nil => simp at ht
      | cons t rest => exact hclosing ⟨rest, by rw [Option.some.inj ht]⟩
    rw [skipClosing_eq_self hnot]
    refine ⟨.openParen :: used, k + 1, rfl, ?_, hheight,
      .inr fun t ht => ⟨hnot t ht, sum_stops hsum t ht⟩⟩
    rw [List.replicate_succ', ← List.append_assoc]
    exact .paren hd

/-- A sign accounts for what it reads if its operand does. -/
lemma Accounts.signed {room : ℕ} {ts rest : List Token} {e : Expr} (s : Sign)
    (h : Accounts .operand room ts e rest) :
    Accounts .operand (room + 1) (s.token :: ts) (.signed s e) rest := by
  obtain ⟨used, k, rfl, hd, hh, hk⟩ := h
  exact ⟨s.token :: used, k, rfl, .signed s hd, Nat.succ_le_succ hh, hk⟩

/-- **What is read is derived**: an operand that the parser finds is one of the grammar, with as
much room as its height.

**Proof sketch.** Induction on the room, which the operands inside an operand have less of. -/
theorem accounts_operand (limit room : ℕ) {ts rest : List Token} {e : Expr}
    (hts : ∀ t ∈ ts, t.IsLexical) (h : operand limit room ts = .ok (e, rest)) :
    Accounts .operand room ts e rest := by
  induction room generalizing ts rest e with
  | zero => simp [operand] at h
  | succ room ih =>
    rcases operand_cases h with ⟨s, us, e', rfl, hi, rfl⟩ | ⟨us, e', mid, rfl, hi, rfl, rfl⟩ |
      ⟨c, more, d, rfl, hd, rfl⟩
    · rw [List.forall_mem_cons] at hts
      exact (ih hts.2 hi).signed s
    · rw [List.forall_mem_cons] at hts
      exact Accounts.paren hi ((isLevel_sum ih).accounts hts.2 hi)
    · rw [List.forall_mem_cons] at hts
      obtain ⟨hnumber, rfl⟩ := (Decimal.ofText?_eq_some_iff hts.1).mp hd
      exact ⟨[.number c more], 0, rfl, derives_number hnumber, Nat.le_add_left 1 room, .inl rfl⟩

/-- A sum that the parser finds is one of the grammar.

**Proof sketch.** Sums are a level, as operands are accounted for (`accounts_operand`), and a level
accounts for what it reads (`IsLevel.accounts`). -/
theorem accounts_sum (limit room : ℕ) {ts rest : List Token} {e : Expr}
    (hts : ∀ t ∈ ts, t.IsLexical) (h : sum limit room ts = .ok (e, rest)) :
    Accounts .sum room ts e rest :=
  (isLevel_sum (accounts_operand limit room)).accounts hts h

end PocketCalculator.Parser

namespace PocketCalculator

/-! ## Whole texts -/

/-- **The texts that the parser accepts**: those that are an expression of the grammar, within the
limit, once closed.

**Proof sketch.** What is accepted is read with nothing left over, so that all tokens are accounted
for (`Parser.accounts_sum`). Conversely, an expression that may lack closing parentheses at its end
is read if nothing follows (`Parser.sum_of_derives`). -/
theorem Expr.parse_eq_ok_iff {limit : ℕ} {text : List Char} {e : Expr} :
    Expr.parse limit text = .ok e ↔
      ∃ k, Derives .sum (Token.scan text ++ List.replicate k .closeParen) e ∧ e.height ≤ limit := by
  constructor
  · intro h
    unfold Expr.parse at h
    split at h
    · simp at h
    · rename_i e' hsum
      obtain rfl : e' = e := Except.ok.inj h
      obtain ⟨used, k, hused, hd, hh, -⟩ :=
        Parser.accounts_sum limit limit (fun t => Token.isLexical_of_mem_scan) hsum
      rw [List.append_nil] at hused
      exact ⟨k, hused ▸ hd, hh⟩
    · simp at h
  · rintro ⟨k, hd, hh⟩
    have hsum : Parser.sum limit limit (Token.scan text ++ []) = .ok (e, []) :=
      Parser.sum_of_derives hd hh (.inr (by simp)) (by simp)
    rw [List.append_nil] at hsum
    simp only [Expr.parse, hsum]

/-- A text that is an expression once closed lacks as many closing parentheses as it has opening
ones too many.

**Proof sketch.** Parentheses come in pairs in the closed tokens (`Derives.count_openParen`), those
that close them are counted by themselves, and scanning keeps the numbers of both. -/
lemma count_of_derives_closed {r : Rank} {text : List Char} {e : Expr} {k : ℕ}
    (h : Derives r (Token.scan text ++ List.replicate k .closeParen) e) :
    text.count '(' = text.count ')' + k := by
  have hcount := h.count_openParen
  have hopen : (Token.scan text).count .openParen = text.count '(' :=
    Token.count_scan (s := '(') (by decide) (by decide) text
  have hclose : (Token.scan text).count .closeParen = text.count ')' :=
    Token.count_scan (s := ')') (by decide) (by decide) text
  rw [List.count_append, List.count_append, List.count_replicate_self, hopen, hclose,
    List.count_eq_zero.mpr fun hmem => absurd (List.eq_of_mem_replicate hmem) (by decide)] at hcount
  omega

/-- A text that is an expression once closed has its value. -/
lemma evaluate_of_derives {text : List Char} {e : Expr} {k : ℕ}
    (h : Derives .sum (Token.scan text ++ List.replicate k .closeParen) e)
    (hheight : e.height ≤ nestingLimit) : evaluate text = .ok e.eval := by
  simp only [evaluate, Expr.parse_eq_ok_iff.mpr ⟨k, h, hheight⟩, Except.map]

/-- A text with a value is an expression once closed.

**Proof sketch.** A value is that of the expression which the parser has accepted, and this is one
of the grammar (`Expr.parse_eq_ok_iff`). -/
lemma derives_of_evaluate {text : List Char} {v : Float} (h : evaluate text = .ok v) :
    ∃ k e, Derives .sum (Token.scan text ++ List.replicate k .closeParen) e ∧
      e.height ≤ nestingLimit ∧ e.eval = v := by
  cases hparse : Expr.parse nestingLimit text with
  | error _ => simp [evaluate, hparse, Except.map] at h
  | ok e =>
    obtain ⟨k, hd, hh⟩ := Expr.parse_eq_ok_iff.mp hparse
    simp only [evaluate, hparse, Except.map, Except.ok.injEq] at h
    exact ⟨k, e, hd, hh, h⟩

/-- **The texts that have a value**: a text has the value `v` exactly if it has no more closing
parentheses than opening ones and, closed at its end by as many as are missing, spells an expression
of the grammar whose value is `v` and in which at most 256 operands stand one within another.

**Proof sketch.** The parser accepts exactly the texts that are expressions once closed by some
number of parentheses (`Expr.parse_eq_ok_iff`), and counting says that it can only be the number of
those that are missing (`count_of_derives_closed`). Parentheses at the end of a text are tokens at
the end of its tokens (`Token.scan_append_closing`), which are what the text spells. -/
theorem evaluate_eq_ok_iff (text : List Char) (v : Float) :
    evaluate text = .ok v ↔
      text.count ')' ≤ text.count '(' ∧
      ∃ ts e, Token.Spells ts (text ++ List.replicate (text.count '(' - text.count ')') ')') ∧
        Derives .sum ts e ∧ e.height ≤ 256 ∧ e.eval = v := by
  constructor
  · intro h
    obtain ⟨k, e, hd, hh, hv⟩ := derives_of_evaluate h
    have hk := count_of_derives_closed hd
    refine ⟨by omega, _, e, Token.spells_iff.mpr rfl, ?_, hh, hv⟩
    rw [Token.scan_append_closing, show text.count '(' - text.count ')' = k by omega]
    exact hd
  · rintro ⟨-, ts, e, hts, hd, hh, rfl⟩
    rw [Token.spells_iff, Token.scan_append_closing] at hts
    exact evaluate_of_derives (hts ▸ hd) hh

end PocketCalculator
