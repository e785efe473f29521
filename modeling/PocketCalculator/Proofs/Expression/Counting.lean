import Mathlib.Data.Nat.Basic
import Mathlib.Tactic.Common
import PocketCalculator.Expression.Parser
import PocketCalculator.Proofs.Expression.Grammar

/-!
# Counting open operands

An operand is open from the moment it is awaited until it has been read or refused, and an operand
that is read while others are open stands within them. Here reading keeps a count of the open
operands, which goes up and down by one, and the limit is a bound of this count. It can be left out:
then nothing but the text decides how deep the reading goes. Reading is a relation, for without a
limit it is not clear beforehand that it comes to an end.

## Main definitions

* `Parser.Count` — how many operands are open now, and how many have been at once.
* `Parser.Counted` — reading with a count, with a limit or without one.
* `Parser.Ends` — a reading ends in one way and in no other.

## Main results

* `Parser.counted_opened_iff`, `Parser.counted_chain_iff`, `Parser.counted_link_iff` — how reading
  goes on.
* `Parser.ends_full` — with the limit reached nothing is read.
-/

namespace PocketCalculator

/-! ## Ranks -/

/-- The rank of the parts that a chain of a rank is made of. -/
def Rank.part : Rank → Rank
  | .operand | .product => .operand
  | .sum => .product

/-- The operators that join the parts of a chain of a rank. -/
def Rank.operator? : Rank → Token → Option Operator
  | .operand => fun _ => none
  | .product => Parser.multiplicative?
  | .sum => Parser.additive?

namespace Parser

/-! ## Counts -/

/-- A count of operands. -/
@[ext]
structure Count where
  /-- How many operands are open. -/
  opened : ℕ
  /-- How many operands have been open at once, at most. -/
  deepest : ℕ
  /-- The operands that are open now count too. -/
  opened_le : opened ≤ deepest

namespace Count

/-- No operand has been open yet. -/
def zero : Count :=
  ⟨0, 0, Nat.le_refl 0⟩

/-- One more operand is open. -/
def enter (c : Count) : Count where
  opened := c.opened + 1
  deepest := max c.deepest (c.opened + 1)
  opened_le := Nat.le_max_right _ _

/-- One operand less is open. -/
def leave (c : Count) : Count where
  opened := c.opened - 1
  deepest := c.deepest
  opened_le := (Nat.sub_le _ _).trans c.opened_le

/-- As many operands are open as before, but there have been `n` more at once. -/
def reach (c : Count) (n : ℕ) : Count where
  opened := c.opened
  deepest := max c.deepest (c.opened + n)
  opened_le := c.opened_le.trans (Nat.le_max_left _ _)

/-- The error of opening one more operand, if there is a limit and the count is there. -/
def refusal? (c : Count) : Option ℕ → Option CalcError
  | some limit => if limit ≤ c.opened then some (.tooDeep limit) else none
  | none => none

/-- Below the limit there is no error. -/
lemma refusal?_eq_none {c : Count} {limit? : Option ℕ} (h : ∀ limit ∈ limit?, c.opened < limit) :
    c.refusal? limit? = none := by
  cases limit? with
  | none => rfl
  | some limit => exact if_neg (Nat.not_le.mpr (h limit rfl))

end Count

/-! ## Reading with a count -/

/-- What reading ends with: an expression and the tokens after it, or the cause of a refusal. -/
abbrev Ending := Except CalcError (Expr × List Token)

/-- What is read next. -/
inductive Stage
  /-- An expression of rank `r` is read from `ts`. -/
  | await (r : Rank) (ts : List Token)
  /-- An operand is open, and what it is made of is read from `ts`. -/
  | inside (ts : List Token)
  /-- A chain of rank `r` goes on after what has been read of it. -/
  | goOn (r : Rank) (res : Ending)

/-- What an operand is made of after a sign or a parenthesis: an expression of some rank, and what
becomes of it and of the tokens after it. -/
def opening? : Token → Option (Rank × (Expr × List Token → Expr × List Token))
  | .plus => some (.operand, fun (e, rest) => (.signed .plus e, rest))
  | .minus => some (.operand, fun (e, rest) => (.signed .minus e, rest))
  | .openParen => some (.sum, fun (e, rest) => (.paren e, skipClosing rest))
  | _ => none

/-- `Counted limit? stage c res c'` says that reading at a stage with the count `c` ends with `res`
and the count `c'`. An operand is refused if it would be one too many for the limit, and else counts
until it has been read, in whichever way that ends. -/
inductive Counted (limit? : Option ℕ) : Stage → Count → Ending → Count → Prop
  /-- An operand may be one too many. -/
  | refused {ts c err} (full : c.refusal? limit? = some err) :
    Counted limit? (.await .operand ts) c (.error err) c
  /-- Else it is open until it has been read. -/
  | operand {ts c res c'} (room : c.refusal? limit? = none)
    (inside : Counted limit? (.inside ts) c.enter res c') :
    Counted limit? (.await .operand ts) c res c'.leave
  /-- A product or a sum begins with its first part. -/
  | chain {r ts c res c' res' c''} (rank : r ≠ .operand)
    (first : Counted limit? (.await r.part ts) c res c')
    (more : Counted limit? (.goOn r res) c' res' c'') : Counted limit? (.await r ts) c res' c''
  /-- An operand needs a token. -/
  | ended {c} : Counted limit? (.inside []) c (.error (.unexpected none)) c
  /-- A sign and a parenthesis have an expression after them. -/
  | opened {t r f ts c res c'} (opening : opening? t = some (r, f))
    (part : Counted limit? (.await r ts) c res c') :
    Counted limit? (.inside (t :: ts)) c (res.map f) c'
  /-- An operand may be a number, or what looks like one. -/
  | number {d more ts c} :
    Counted limit? (.inside (.number d more :: ts)) c (number (d :: more) ts) c
  /-- Any other token is refused. -/
  | unexpected {t ts c} (other : opening? t = none) (symbol : t.isNumber = false) :
    Counted limit? (.inside (t :: ts)) c (.error (.unexpected (some t.first))) c
  /-- A part that is refused ends a chain. -/
  | failed {r err c} : Counted limit? (.goOn r (.error err)) c (.error err) c
  /-- A chain ends where none of its operators follows. -/
  | stop {r left ts c} (stops : ∀ t ∈ ts.head?, r.operator? t = none) :
    Counted limit? (.goOn r (.ok (left, ts))) c (.ok (left, ts)) c
  /-- A chain goes on with an operator and a part. -/
  | link {r left t ts op c res c' res' c''} (operator : r.operator? t = some op)
    (part : Counted limit? (.await r.part ts) c res c')
    (more : Counted limit? (.goOn r (res.map fun (right, rest) => (.binary op left right, rest)))
      c' res' c'') : Counted limit? (.goOn r (.ok (left, t :: ts))) c res' c''

section

variable {limit? : Option ℕ} {r : Rank} {ts : List Token} {c c' : Count} {res : Ending}

/-- How an operand is read after a sign or a parenthesis.

**Proof sketch.** Of the ways to read what an operand is made of, only this one begins with a token
that opens another expression. -/
lemma counted_opened_iff {t : Token} {f : Expr × List Token → Expr × List Token}
    (ht : opening? t = some (r, f)) : Counted limit? (.inside (t :: ts)) c res c' ↔
      ∃ part, Counted limit? (.await r ts) c part c' ∧ res = part.map f := by
  constructor
  · intro h
    cases h with
    | opened opening part =>
      obtain ⟨rfl, rfl⟩ := Prod.mk.inj (Option.some.inj (ht.symm.trans opening))
      exact ⟨_, part, rfl⟩
    | number => exact absurd ht nofun
    | unexpected other => exact absurd (ht.symm.trans other) nofun
  · rintro ⟨part, hpart, rfl⟩
    exact .opened ht hpart

/-- How a product or a sum is read.

**Proof sketch.** The other two ways to read an expression are those of operands. -/
lemma counted_chain_iff (hr : r ≠ .operand) : Counted limit? (.await r ts) c res c' ↔
    ∃ part d, Counted limit? (.await r.part ts) c part d ∧
      Counted limit? (.goOn r part) d res c' := by
  constructor
  · intro h
    cases h with
    | refused => exact absurd rfl hr
    | operand => exact absurd rfl hr
    | chain _ first more => exact ⟨_, _, first, more⟩
  · rintro ⟨part, d, first, more⟩
    exact .chain hr first more

/-- How a chain goes on after an operator.

**Proof sketch.** Since an operator of the rank follows the chain does not stop, and a token is one
operator at most. -/
lemma counted_link_iff {t : Token} {op : Operator} (hop : r.operator? t = some op) {left : Expr} :
    Counted limit? (.goOn r (.ok (left, t :: ts))) c res c' ↔
      ∃ part d, Counted limit? (.await r.part ts) c part d ∧
        Counted limit? (.goOn r (part.map fun (right, rest) => (.binary op left right, rest)))
          d res c' := by
  constructor
  · intro h
    cases h with
    | stop stops => exact absurd (stops t rfl) (by simp [hop])
    | link operator part more =>
      obtain rfl := Option.some.inj (hop.symm.trans operator)
      exact ⟨_, _, part, more⟩
  · rintro ⟨part, d, first, more⟩
    exact .link hop first more

end

/-! ## The only end -/

/-- What relates results and counts holds of `a` and `c` and of nothing else. -/
def Ends {α : Type} (R : α → Count → Prop) (a : α) (c : Count) : Prop :=
  ∀ a' c', R a' c' ↔ a' = a ∧ c' = c

namespace Ends

variable {α β : Type} {R : α → Count → Prop} {a : α} {c : Count}

/-- What holds, and of nothing else, is the only end. -/
lemma intro (h : R a c) (only : ∀ a' c', R a' c' → a' = a ∧ c' = c) : Ends R a c := by
  refine fun a' c' => ⟨only a' c', ?_⟩
  rintro ⟨rfl, rfl⟩
  exact h

/-- The only end is one. -/
lemma holds (h : Ends R a c) : R a c :=
  (h a c).mpr ⟨rfl, rfl⟩

/-- What holds of the same has the same end. -/
lemma congr {R' : α → Count → Prop} (h : Ends R a c) (hR : ∀ a' c', R' a' c' ↔ R a' c') :
    Ends R' a c :=
  fun a' c' => (hR a' c').trans (h a' c')

/-- What is made of the only end is the only thing made. -/
lemma map (h : Ends R a c) (f : α → β) : Ends (fun b c' => ∃ a', R a' c' ∧ b = f a') (f a) c := by
  refine .intro ⟨a, h.holds, rfl⟩ ?_
  rintro b c' ⟨a', hR, rfl⟩
  obtain ⟨rfl, rfl⟩ := (h a' c').mp hR
  exact ⟨rfl, rfl⟩

/-- What goes on after the only end goes on there. -/
lemma bind {S : α → Count → β → Count → Prop} {b : β} {d : Count} (h : Ends R a c)
    (h' : Ends (S a c) b d) : Ends (fun b' d' => ∃ a' c', R a' c' ∧ S a' c' b' d') b d := by
  refine .intro ⟨a, c, h.holds, h'.holds⟩ ?_
  rintro b' d' ⟨a', c', hR, hS⟩
  obtain ⟨rfl, rfl⟩ := (h a' c').mp hR
  exact (h' b' d').mp hS

end Ends

/-- A chain ends with a part that is refused. -/
lemma ends_failed (limit? : Option ℕ) (r : Rank) (err : CalcError) (c : Count) :
    Ends (Counted limit? (.goOn r (.error err)) c) (.error err) c := by
  refine .intro .failed ?_
  rintro _ _ ⟨⟩
  exact ⟨rfl, rfl⟩

/-- A chain ends where none of its operators follows. -/
lemma ends_stop (limit? : Option ℕ) {r : Rank} {ts : List Token}
    (hts : ∀ t ∈ ts.head?, r.operator? t = none) (left : Expr) (c : Count) :
    Ends (Counted limit? (.goOn r (.ok (left, ts))) c) (.ok (left, ts)) c := by
  refine .intro (.stop hts) fun res c' h => ?_
  cases h with
  | stop => exact ⟨rfl, rfl⟩
  | link operator => exact absurd operator (by simp [hts _ rfl])

/-- An operand needs a token. -/
lemma ends_ended (limit? : Option ℕ) (c : Count) :
    Ends (Counted limit? (.inside []) c) (.error (.unexpected none)) c := by
  refine .intro .ended ?_
  rintro _ _ ⟨⟩
  exact ⟨rfl, rfl⟩

/-- An operand that begins with a number is this number. -/
lemma ends_number (limit? : Option ℕ) (d : Char) (more : List Char) (ts : List Token) (c : Count) :
    Ends (Counted limit? (.inside (.number d more :: ts)) c) (number (d :: more) ts) c := by
  refine .intro .number fun res c' h => ?_
  cases h with
  | opened opening => exact absurd opening nofun
  | number => exact ⟨rfl, rfl⟩
  | unexpected _ symbol => exact absurd symbol nofun

/-- No operand begins with any other token. -/
lemma ends_unexpected (limit? : Option ℕ) {t : Token} (ht : opening? t = none)
    (hsymbol : t.isNumber = false) (ts : List Token) (c : Count) :
    Ends (Counted limit? (.inside (t :: ts)) c) (.error (.unexpected (some t.first))) c := by
  refine .intro (.unexpected ht hsymbol) fun res c' h => ?_
  cases h with
  | opened opening => exact absurd (ht.symm.trans opening) nofun
  | number => exact absurd hsymbol nofun
  | unexpected => exact ⟨rfl, rfl⟩

/-- Where an operand may be opened, it ends with what it is made of.

**Proof sketch.** Since the operand is not one too many it is not refused, and what it is made of
ends in one way. -/
lemma ends_operand {limit? : Option ℕ} {c c' : Count} {ts : List Token} {res : Ending}
    (hroom : c.refusal? limit? = none) (h : Ends (Counted limit? (.inside ts) c.enter) res c') :
    Ends (Counted limit? (.await .operand ts) c) res c'.leave := by
  refine .intro (.operand hroom h.holds) fun res' d hd => ?_
  cases hd with
  | refused full => exact absurd (hroom.symm.trans full) nofun
  | operand _ inside =>
    obtain ⟨rfl, rfl⟩ := (h _ _).mp inside
    exact ⟨rfl, rfl⟩
  | chain rank => exact absurd rfl rank

/-- With as many operands open as there may be, no further one is.

**Proof sketch.** An operand is refused at once. A product begins with an operand and a sum with a
product, and a refused part ends a chain. -/
lemma ends_full {limit : ℕ} {c : Count} (h : limit ≤ c.opened) (r : Rank) (ts : List Token) :
    Ends (Counted (some limit) (.await r ts) c) (.error (.tooDeep limit)) c := by
  have hfull : c.refusal? (some limit) = some (.tooDeep limit) := if_pos h
  have hoperand :
      Ends (Counted (some limit) (.await .operand ts) c) (.error (.tooDeep limit)) c := by
    refine .intro (.refused hfull) fun res c' h => ?_
    cases h with
    | refused full =>
      obtain rfl := Option.some.inj (hfull.symm.trans full)
      exact ⟨rfl, rfl⟩
    | operand room => exact absurd (hfull.symm.trans room) nofun
    | chain rank => exact absurd rfl rank
  have hchain : ∀ {r : Rank}, r ≠ .operand →
      Ends (Counted (some limit) (.await r.part ts) c) (.error (.tooDeep limit)) c →
        Ends (Counted (some limit) (.await r ts) c) (.error (.tooDeep limit)) c :=
    fun hr hpart => (hpart.bind (ends_failed _ _ _ c)).congr fun _ _ => counted_chain_iff hr
  have hproduct := hchain (r := .product) nofun hoperand
  cases r with
  | operand => exact hoperand
  | product => exact hproduct
  | sum => exact hchain nofun hproduct

end Parser

end PocketCalculator
