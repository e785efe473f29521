import Mathlib.Data.Nat.Basic
import Mathlib.Tactic.Common
import PocketCalculator.Proofs.Expression.Chain
import PocketCalculator.Proofs.Expression.Counting

/-!
# Levels

Every reading needs some number of levels, which the text alone decides: if as many operands may be
open at once it ends in one way, and otherwise it is too deep. So it comes to an end with a limit
and without.

The parser has no count. It hands the room that is left down to the operands inside an operand, and
so the operands of a chain, one after the other, all have the same room. Both ways agree because a
count is always back at its old value after an operand, be it read or refused.

## Main definitions

* `Parser.Needs` — a reading ends in one way if there are enough levels, and is too deep otherwise.
* `Parser.NeedsOn` — this of the readings of a rank, counted and not.

## Main results

* `Parser.exists_needs` — every reading needs some number of levels.
* `Parser.exists_counted` — every counted reading comes to an end with its old count.
-/

namespace PocketCalculator.Parser

/-! ## Parsers of a rank -/

/-- The parser of a rank. -/
def ofRank (limit room : ℕ) : Rank → Parser
  | .operand => operand limit room
  | .product => product limit room
  | .sum => sum limit room

/-- Products and sums are chains. -/
lemma ofRank_of_chain {r : Rank} (hr : r ≠ .operand) (limit room : ℕ) :
    ofRank limit room r = chain r.operator? (ofRank limit room r.part) := by
  cases r with
  | operand => exact absurd rfl hr
  | product => rfl
  | sum => rfl

/-- Every rank uses up tokens. -/
lemma consumes_ofRank (limit room : ℕ) (r : Rank) : Consumes (ofRank limit room r) := by
  cases r with
  | operand => exact consumes_operand limit room
  | product => exact consumes_product limit room
  | sum => exact consumes_sum limit room

/-! ## What reading needs -/

/-- Counted readings: with a limit or without one, from a count on. -/
abbrev Reading := Option ℕ → Count → Ending → Count → Prop

/-- `Needs count parse n res` says that the counted reading `count` and the parser `parse` end with
`res` if `n` more operands may be open at once, and are too deep otherwise. As many operands are
open after the reading as before it. -/
structure Needs (count : Reading) (parse : ℕ → ℕ → Ending) (n : ℕ) (res : Ending) : Prop where
  /-- Within the limit the reading ends with `res`. -/
  within : ∀ {limit? : Option ℕ} {c : Count}, (∀ limit ∈ limit?, c.opened + n ≤ limit) →
    Ends (count limit? c) res (c.reach n)
  /-- Beyond the limit it is refused. -/
  beyond : ∀ {limit : ℕ} {c : Count}, c.opened ≤ limit → limit < c.opened + n →
    ∃ c', Ends (count (some limit) c) (.error (.tooDeep limit)) c' ∧ c'.opened = c.opened
  /-- The parser does the same with its room. -/
  parse_eq : ∀ limit room, parse limit room = if n ≤ room then res else .error (.tooDeep limit)

namespace Needs

variable {count count' : Reading} {parse parse' : ℕ → ℕ → Ending} {n m : ℕ} {res res' : Ending}

/-- What a reading needs is decided by what it does. -/
lemma congr (h : Needs count parse n res)
    (hcount : ∀ limit? c res' c', count' limit? c res' c' ↔ count limit? c res' c')
    (hparse : ∀ limit room, parse' limit room = parse limit room) : Needs count' parse' n res where
  within hfits := (h.within hfits).congr (hcount _ _)
  beyond hle hlt := by
    obtain ⟨c', hends, hopened⟩ := h.beyond hle hlt
    exact ⟨c', hends.congr (hcount _ _), hopened⟩
  parse_eq limit room := (hparse limit room).trans (h.parse_eq limit room)

/-- A reading that ends at once needs nothing. -/
lemma done (hcount : ∀ limit? c, Ends (count limit? c) res c)
    (hparse : ∀ limit room, parse limit room = res) : Needs count parse 0 res where
  within {limit? c} _ := by
    have hreach : c.reach 0 = c := Count.ext rfl (max_eq_left c.opened_le)
    rw [hreach]
    exact hcount limit? c
  beyond hle hlt := absurd hlt (Nat.not_lt.mpr hle)
  parse_eq limit room := (hparse limit room).trans (if_pos (Nat.zero_le _)).symm

/-- Two readings one after the other need as much as the one that needs more.

**Proof sketch.** Within the limit both end, and the count has reached as far as the deeper of them.
Beyond it, either the first is too deep, and nothing goes on after a refusal, or the second is, from
the count that the first has left unchanged. The parser hands the same room to both. -/
lemma bind (h : Needs count parse n res) (more : Ending → Reading)
    (parseMore : Ending → ℕ → ℕ → Ending) (h' : Needs (more res) (parseMore res) m res')
    (hcount : ∀ err limit? c, Ends (more (.error err) limit? c) (.error err) c)
    (hparse : ∀ err limit room, parseMore (.error err) limit room = .error err) :
    Needs (fun limit? c res' c' => ∃ res d, count limit? c res d ∧ more res limit? d res' c')
      (fun limit room => parseMore (parse limit room) limit room) (max n m) res' where
  within {limit? c} hfits := by
    have hn : ∀ limit ∈ limit?, c.opened + n ≤ limit := fun limit hl => by
      have := hfits limit hl
      omega
    have hm : ∀ limit ∈ limit?, (c.reach n).opened + m ≤ limit := fun limit hl => by
      have := hfits limit hl
      simp only [Count.reach]
      omega
    have hreach : (c.reach n).reach m = c.reach (max n m) :=
      Count.ext rfl (by simp only [Count.reach]; omega)
    rw [← hreach]
    exact (h.within hn).bind (h'.within hm)
  beyond {limit c} hle hlt := by
    by_cases hn : limit < c.opened + n
    · obtain ⟨c', hends, hopened⟩ := h.beyond hle hn
      exact ⟨c', hends.bind (hcount _ _ _), hopened⟩
    · have hfits : ∀ l ∈ some limit, c.opened + n ≤ l := by
        simpa using Nat.not_lt.mp hn
      have hreach : (c.reach n).opened ≤ limit := hle
      obtain ⟨c', hends, hopened⟩ := h'.beyond hreach (show limit < c.opened + m by omega)
      exact ⟨c', (h.within hfits).bind hends, hopened⟩
  parse_eq limit room := by
    simp only [h.parse_eq]
    by_cases hn : n ≤ room
    · rw [if_pos hn, h'.parse_eq]
      exact if_congr (by omega) rfl rfl
    · rw [if_neg hn, hparse, if_neg (by omega)]

/-- What is made of a result needs nothing. -/
lemma map (h : Needs count parse n res) (f : Expr × List Token → Expr × List Token) :
    Needs (fun limit? c res' c' => ∃ res, count limit? c res c' ∧ res' = res.map f)
      (fun limit room => (parse limit room).map f) n (res.map f) where
  within hfits := (h.within hfits).map (Except.map f)
  beyond hle hlt := by
    obtain ⟨c', hends, hopened⟩ := h.beyond hle hlt
    exact ⟨c', hends.map (Except.map f), hopened⟩
  parse_eq limit room := by
    rw [h.parse_eq, apply_ite (Except.map f)]
    rfl

/-- An operand needs one level more than what it is made of.

**Proof sketch.** The count goes up by one before the inside is read and down again behind it, as
the room of the parser goes down by one. If the limit has been reached the operand is refused before
anything is looked at, as it is without room. -/
lemma operand {ts : List Token}
    (h : Needs (fun limit? => Counted limit? (.inside ts)) parse n res) :
    Needs (fun limit? => Counted limit? (.await .operand ts))
      (fun limit room => match room with
        | 0 => .error (.tooDeep limit)
        | room + 1 => parse limit room) (n + 1) res where
  within {limit? c} hfits := by
    have hroom : c.refusal? limit? = none := Count.refusal?_eq_none fun limit hl => by
      have := hfits limit hl
      omega
    have hinside : ∀ limit ∈ limit?, c.enter.opened + n ≤ limit := fun limit hl => by
      have := hfits limit hl
      simp only [Count.enter]
      omega
    have hleave : (c.enter.reach n).leave = c.reach (n + 1) :=
      Count.ext rfl (by simp only [Count.enter, Count.reach, Count.leave]; omega)
    rw [← hleave]
    exact ends_operand hroom (h.within hinside)
  beyond {limit c} hle hlt := by
    by_cases hfull : limit ≤ c.opened
    · exact ⟨c, ends_full hfull .operand ts, rfl⟩
    · have hroom : c.refusal? (some limit) = none := if_neg hfull
      have henter : c.enter.opened ≤ limit := Nat.not_le.mp hfull
      obtain ⟨c', hends, hopened⟩ := h.beyond henter (show limit < c.opened + 1 + n by omega)
      refine ⟨c'.leave, ends_operand hroom hends, ?_⟩
      simp only [Count.leave, hopened, Count.enter, Nat.add_sub_cancel]
  parse_eq limit room := by
    cases room with
    | zero => exact (if_neg (Nat.not_succ_le_zero n)).symm
    | succ room => exact (h.parse_eq limit room).trans (if_congr (by omega) rfl rfl)

end Needs

/-! ## Chains -/

/-- Goes on with a chain after what has been read of it. -/
def resume (operator? : Token → Option Operator) (item : Parser) : Ending → Ending
  | .error err => .error err
  | .ok (left, rest) => links operator? item left rest

/-- A chain goes on after its first part. -/
lemma chain_eq_resume (operator? : Token → Option Operator) (item : Parser) (ts : List Token) :
    chain operator? item ts = resume operator? item (item ts) := by
  cases h : item ts with
  | error err => simp only [chain, h, resume]
  | ok r => exact chain_of_ok h

/-- A chain goes on with an operator and the part after it. -/
lemma resume_link {operator? : Token → Option Operator} {item : Parser} (hitem : Consumes item)
    (left : Expr) {t : Token} {op : Operator} (hop : operator? t = some op) (ts : List Token) :
    resume operator? item (.ok (left, t :: ts)) =
      resume operator? item ((item ts).map fun (right, rest) => (.binary op left right, rest)) := by
  rw [resume, links_cons hitem, hop]
  cases item ts with
  | error err => rfl
  | ok r => rfl

/-- Reading an expression of rank `r` from `ts` needs `n` levels and ends with `res`. -/
abbrev NeedsOn (r : Rank) (ts : List Token) : ℕ → Ending → Prop :=
  Needs (fun limit? => Counted limit? (.await r ts)) (fun limit room => ofRank limit room r ts)

/-- Going on with a chain of rank `r` after `res` needs `n` levels and ends with `res'`. -/
abbrev NeedsFrom (r : Rank) (res : Ending) : ℕ → Ending → Prop :=
  Needs (fun limit? => Counted limit? (.goOn r res))
    (fun limit room => resume r.operator? (ofRank limit room r.part) res)

/-- Where reading ends, fewer tokens are left. -/
lemma NeedsOn.length_lt {r : Rank} {ts rest : List Token} {n : ℕ} {e : Expr}
    (h : NeedsOn r ts n (.ok (e, rest))) : rest.length < ts.length :=
  (consumes_ofRank 0 n r).length_lt ((h.parse_eq 0 n).trans (if_pos le_rfl))

/-- A chain that goes on needs what its next part does and what follows does.

**Proof sketch.** The part after the operator and what follows it are two readings one after the
other (`Needs.bind`), counted or not. -/
lemma NeedsOn.link {r : Rank} {t : Token} {op : Operator} (hop : r.operator? t = some op)
    {left : Expr} {ts : List Token} {n m : ℕ} {res res' : Ending} (h : NeedsOn r.part ts n res)
    (h' : NeedsFrom r (res.map fun (right, rest) => (.binary op left right, rest)) m res') :
    NeedsFrom r (.ok (left, t :: ts)) (max n m) res' := by
  have hlink := h.bind
    (fun res limit? =>
      Counted limit? (.goOn r (res.map fun (right, rest) => (.binary op left right, rest))))
    (fun res limit room => resume r.operator? (ofRank limit room r.part)
      (res.map fun (right, rest) => (.binary op left right, rest)))
    h' (fun err limit? c => ends_failed limit? r err c) fun _ _ _ => rfl
  exact hlink.congr (fun _ _ _ _ => counted_link_iff hop) fun limit room =>
    resume_link (consumes_ofRank limit room r.part) left hop ts

/-- Going on with a chain needs some number of levels if its parts do.

**Proof sketch.** Induction on the number of tokens left, which every part makes smaller. -/
lemma exists_needsFrom (r : Rank) {k : ℕ}
    (ih : ∀ us : List Token, us.length < k → ∃ n res, NeedsOn r.part us n res) (res : Ending)
    (hres : ∀ e rest, res = .ok (e, rest) → rest.length ≤ k) :
    ∃ n res', NeedsFrom r res n res' := by
  induction k using Nat.strong_induction_on generalizing res with
  | _ k ihlinks =>
    rcases res with err | ⟨left, ts⟩
    · exact ⟨0, _, .done (fun limit? c => ends_failed limit? r err c) fun _ _ => rfl⟩
    by_cases hstop : ∀ t ∈ ts.head?, r.operator? t = none
    · exact ⟨0, _, .done (fun limit? c => ends_stop limit? hstop left c) fun limit room =>
        links_of_stop (consumes_ofRank limit room r.part) left hstop⟩
    cases ts with
    | nil => exact absurd (by simp) hstop
    | cons t ts =>
      obtain ⟨op, hop⟩ : ∃ op, r.operator? t = some op :=
        Option.ne_none_iff_exists'.mp (by simpa using hstop)
      have hts : ts.length < k := hres left (t :: ts) rfl
      obtain ⟨n, res, hpart⟩ := ih ts hts
      obtain ⟨m, res', hrest⟩ : ∃ m res', NeedsFrom r
          (res.map fun (right, rest) => (.binary op left right, rest)) m res' := by
        refine ihlinks ts.length hts (fun us hus => ih us (hus.trans hts)) _ fun e rest h => ?_
        rcases res with err | ⟨right, mid⟩
        · exact absurd h (by simp [Except.map])
        · obtain ⟨-, rfl⟩ : Expr.binary op left right = e ∧ mid = rest := by
            simpa [Except.map] using h
          exact hpart.length_lt.le
      exact ⟨_, _, hpart.link hop hrest⟩

/-- A chain needs some number of levels if its parts do.

**Proof sketch.** The first part and the chain that goes on behind it are two readings one after the
other (`Needs.bind`). What goes on needs some number of levels as well (`exists_needsFrom`), for the
first part has used up a token. -/
lemma NeedsOn.chain {r : Rank} (hr : r ≠ .operand) {ts : List Token} {n : ℕ} {res : Ending}
    (h : NeedsOn r.part ts n res)
    (ih : ∀ us : List Token, us.length < ts.length → ∃ n res, NeedsOn r.part us n res) :
    ∃ n res, NeedsOn r ts n res := by
  obtain ⟨m, res', hfrom⟩ := exists_needsFrom r ih res
    fun e rest he => (NeedsOn.length_lt (he ▸ h)).le
  have hchain := h.bind (fun res limit? => Counted limit? (.goOn r res))
    (fun res limit room => resume r.operator? (ofRank limit room r.part) res) hfrom
    (fun err limit? c => ends_failed limit? r err c) fun _ _ _ => rfl
  refine ⟨_, _, hchain.congr (fun _ _ _ _ => counted_chain_iff hr) fun limit room => ?_⟩
  rw [ofRank_of_chain hr, chain_eq_resume]

/-! ## Every reading -/

/-- What an operand is made of needs some number of levels if all shorter readings do.

**Proof sketch.** By the first token. After a sign or a parenthesis a shorter reading follows, and
what is made of its result needs nothing. A number, any other token and the end of the tokens need
nothing either. -/
lemma exists_needs_inside (ts : List Token)
    (ih : ∀ r, ∀ us : List Token, us.length < ts.length → ∃ n res, NeedsOn r us n res) :
    ∃ n res, Needs (fun limit? => Counted limit? (.inside ts))
      (fun limit room => Parser.operand limit (room + 1) ts) n res := by
  cases ts with
  | nil => exact ⟨0, _, .done (fun limit? c => ends_ended limit? c) fun _ _ => rfl⟩
  | cons t ts =>
    have hts : ts.length < (t :: ts).length := Nat.lt_succ_self _
    have hopened : ∀ {r f}, opening? t = some (r, f) →
        (∀ limit room, Parser.operand limit (room + 1) (t :: ts) =
          (ofRank limit room r ts).map f) →
        ∃ n res, Needs (fun limit? => Counted limit? (.inside (t :: ts)))
          (fun limit room => Parser.operand limit (room + 1) (t :: ts)) n res := by
      intro r f ht hparse
      obtain ⟨n, res, h⟩ := ih r ts hts
      exact ⟨n, _, (h.map f).congr (fun _ _ _ _ => counted_opened_iff ht) hparse⟩
    have hunexpected : opening? t = none → t.isNumber = false →
        (∀ limit room, Parser.operand limit (room + 1) (t :: ts) =
          .error (.unexpected (some t.first))) →
        ∃ n res, Needs (fun limit? => Counted limit? (.inside (t :: ts)))
          (fun limit room => Parser.operand limit (room + 1) (t :: ts)) n res :=
      fun ht hsymbol hparse =>
        ⟨0, _, .done (fun limit? c => ends_unexpected limit? ht hsymbol ts c) hparse⟩
    cases t with
    | plus => exact hopened rfl fun _ _ => rfl
    | minus => exact hopened rfl fun _ _ => rfl
    | openParen => exact hopened rfl fun _ _ => rfl
    | number d more =>
      exact ⟨0, _, .done (fun limit? c => ends_number limit? d more ts c) fun _ _ => rfl⟩
    | times => exact hunexpected rfl rfl fun _ _ => rfl
    | divide => exact hunexpected rfl rfl fun _ _ => rfl
    | closeParen => exact hunexpected rfl rfl fun _ _ => rfl
    | stray c => exact hunexpected rfl rfl fun _ _ => rfl

/-- **Every reading needs some number of levels**, with which it ends in one way, counted or not.

**Proof sketch.** Induction on the number of tokens. What an operand is made of has a token less,
and a chain goes on with what its first part leaves. -/
theorem exists_needs (r : Rank) (ts : List Token) : ∃ n res, NeedsOn r ts n res := by
  induction hk : ts.length using Nat.strong_induction_on generalizing r ts with
  | _ k ihlength =>
    have ih : ∀ r, ∀ us : List Token, us.length < ts.length → ∃ n res, NeedsOn r us n res :=
      fun r us hus => ihlength us.length (hk ▸ hus) r us rfl
    have hoperand : ∃ n res, NeedsOn .operand ts n res := by
      obtain ⟨n, res, h⟩ := exists_needs_inside ts ih
      refine ⟨n + 1, res, h.operand.congr (fun _ _ _ _ => Iff.rfl) fun limit room => ?_⟩
      cases room <;> rfl
    have hproduct : ∃ n res, NeedsOn .product ts n res := by
      obtain ⟨n, res, h⟩ := hoperand
      exact NeedsOn.chain (r := .product) nofun h (ih .operand)
    cases r with
    | operand => exact hoperand
    | product => exact hproduct
    | sum =>
      obtain ⟨n, res, h⟩ := hproduct
      exact NeedsOn.chain (r := .sum) nofun h (ih .product)

/-- **The count is restored**: every counted reading, with a limit or without, comes to one end, and
then as many operands are open as before, whether it was read or refused.

**Proof sketch.** Every reading needs some number of levels (`exists_needs`). If the limit has been
reached already, or there is room for fewer, it is too deep, and otherwise it ends. All of these
leave as many operands open as before. -/
theorem exists_counted (limit? : Option ℕ) (r : Rank) (ts : List Token) (c : Count) :
    ∃ res c', Ends (Counted limit? (.await r ts) c) res c' ∧ c'.opened = c.opened := by
  obtain ⟨n, res, h⟩ := exists_needs r ts
  cases limit? with
  | none => exact ⟨res, c.reach n, h.within (by simp), rfl⟩
  | some limit =>
    rcases Nat.lt_or_ge limit c.opened with hfull | hle
    · exact ⟨_, c, ends_full hfull.le r ts, rfl⟩
    rcases Nat.lt_or_ge limit (c.opened + n) with hlt | hfits
    · obtain ⟨c', hends, hopened⟩ := h.beyond hle hlt
      exact ⟨_, c', hends, hopened⟩
    · exact ⟨res, c.reach n, h.within (by simpa using hfits), rfl⟩

end PocketCalculator.Parser
