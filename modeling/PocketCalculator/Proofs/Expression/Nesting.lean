import Mathlib.Data.Nat.Basic
import Mathlib.Tactic.Common
import PocketCalculator.Proofs.Expression.Levels
import PocketCalculator.Proofs.Expression.Offence

/-!
# The limit of nesting

Without a limit a text is read to its end or to its first offence, and some greatest number of
operands is open at once before that. The limit refuses exactly the texts for which this number is
beyond it, and changes nothing for the others. A text is refused for its nesting right after the
sign or the parenthesis that opens one operand too many, before anything that follows is looked at.

## Main definitions

* `Expr.ReadsTo` — what a text is read to with a count of open operands.
* `Expr.Levels` — how many operands of a text are open at once, and how it is read without a limit.
* `Parser.LastLevel` — an operand is awaited in the last level and begins with another one.

## Main results

* `Expr.exists_levels` — every text has a number of levels.
* `Expr.exists_of_tooDeep` — where a text is refused for its nesting.
* `nesting_limit_exact` — the limit of the calculator.
-/

namespace PocketCalculator

open Token (scan isNumeric)

namespace Expr

variable {limit n : ℕ} {text : List Char} {outcome : Except CalcError Expr}

/-! ## Texts with a count -/

/-- What reading a text ends with, given the ending of its sum: nothing may be left over. -/
def finish : Parser.Ending → Except CalcError Expr
  | .error err => .error err
  | .ok (e, []) => .ok e
  | .ok (_, t :: _) => .error (.unexpected (some t.first))

/-- What a text is read to, and the count of operands in the end, with a limit or without. -/
def ReadsTo (limit? : Option ℕ) (text : List Char) (outcome : Except CalcError Expr)
    (count : Parser.Count) : Prop :=
  ∃ res, Parser.Counted limit? (.await .sum (scan text)) .zero res count ∧ outcome = finish res

/-- A text is read as a sum with nothing after it. -/
lemma parse_eq_finish (limit : ℕ) (text : List Char) :
    parse limit text = finish (Parser.sum limit limit (scan text)) := by
  unfold parse
  split <;> simp only [finish, *]

/-- A text is too deep only if its sum is. -/
lemma sum_eq_tooDeep (h : parse limit text = .error (.tooDeep n)) :
    Parser.sum limit limit (scan text) = .error (.tooDeep n) := by
  unfold parse at h
  split at h
  · next err hsum =>
    obtain rfl : err = .tooDeep n := Except.error.inj h
    exact hsum
  · exact absurd h (by simp)
  · exact absurd h (by simp)

/-- A text is too deep for the limit and for no other number.

**Proof sketch.** Reading fails where an operand is refused, and the only number that is named there
is the limit. -/
lemma eq_limit_of_tooDeep (h : parse limit text = .error (.tooDeep n)) : n = limit := by
  obtain ⟨_, _, _, -, -, hrefused⟩ := Parser.breaks_sum limit limit
    (fun _ => Token.isLexical_of_mem_scan) (sum_eq_tooDeep h)
  cases hrefused
  rfl

/-! ## Levels -/

/-- `Levels text n outcome` says that reading `text` without a limit ends with `outcome`, and that
at most `n` operands are open at once before that. -/
structure Levels (text : List Char) (n : ℕ) (outcome : Except CalcError Expr) : Prop where
  /-- The count without a limit is `n`, and in the end no operand is open. -/
  unlimited : ∃ count, Parser.Ends (ReadsTo none text) outcome count ∧ count.opened = 0 ∧
    count.deepest = n
  /-- A count with a limit decides what the room of the parser does. -/
  limited : ∀ limit, ∃ count, Parser.Ends (ReadsTo (some limit) text) (parse limit text) count ∧
    count.opened = 0
  /-- A limit matters only if it is less than `n`. -/
  parse_eq : ∀ limit, parse limit text = if n ≤ limit then outcome else .error (.tooDeep limit)

/-- **Every text has a number of levels.**

**Proof sketch.** The levels are those that the sum of the text needs (`Parser.exists_needs`). A
text is its sum with nothing left over, which is decided alike for the counted reading and for the
parser, and is too deep only if the sum is. -/
theorem exists_levels (text : List Char) : ∃ n outcome, Levels text n outcome := by
  obtain ⟨n, res, h⟩ := Parser.exists_needs .sum (scan text)
  have hparse : ∀ limit, parse limit text =
      if n ≤ limit then finish res else .error (.tooDeep limit) := by
    intro limit
    have hsum : Parser.sum limit limit (scan text) =
        if n ≤ limit then res else .error (.tooDeep limit) := h.parse_eq limit limit
    rw [parse_eq_finish, hsum, apply_ite finish]
    rfl
  refine ⟨n, finish res, ⟨Parser.Count.zero.reach n, ?_, rfl, ?_⟩, fun limit => ?_, hparse⟩
  · exact (h.within (by simp)).map finish
  · simp only [Parser.Count.reach, Parser.Count.zero, Nat.zero_add, Nat.zero_max]
  · rw [hparse]
    by_cases hfits : n ≤ limit
    · have hroom : ∀ l ∈ some limit, Parser.Count.zero.opened + n ≤ l := by
        simpa [Parser.Count.zero] using hfits
      rw [if_pos hfits]
      exact ⟨Parser.Count.zero.reach n, (h.within hroom).map finish, rfl⟩
    · have hbeyond : limit < Parser.Count.zero.opened + n := by
        simpa [Parser.Count.zero] using hfits
      obtain ⟨count, hends, hopened⟩ := h.beyond (Nat.zero_le limit) hbeyond
      rw [if_neg hfits]
      exact ⟨count, hends.map finish, hopened⟩

namespace Levels

variable (h : Levels text n outcome)

include h

/-- With a limit of as many levels the text is read as without any. -/
lemma parse_self : parse n text = outcome :=
  (h.parse_eq n).trans (if_pos le_rfl)

/-- Without a limit nothing is too deep.

**Proof sketch.** The text would be read in the same way with `n` levels and with one more, and
would be too deep for both numbers. -/
lemma ne_tooDeep (m : ℕ) : outcome ≠ .error (.tooDeep m) := by
  rintro rfl
  have hself := eq_limit_of_tooDeep h.parse_self
  have hnext := eq_limit_of_tooDeep ((h.parse_eq (n + 1)).trans (if_pos (Nat.le_succ n)))
  omega

/-- A text is too deep exactly for the limits that are less than its number of levels. -/
lemma tooDeep_iff : parse limit text = .error (.tooDeep limit) ↔ limit < n := by
  rw [h.parse_eq, ite_eq_right_iff, ← Nat.not_le]
  exact ⟨fun hall hle => h.ne_tooDeep limit (hall hle), fun hnot hle => absurd hle hnot⟩

/-- The levels of an expression are its height.

**Proof sketch.** The expression is read within as many levels as its height and no fewer
(`parse_eq_ok_iff`), and that is what the number of levels is. -/
lemma height_eq {e : Expr} (he : outcome = .ok e) : e.height = n := by
  subst he
  obtain ⟨k, hd, hheight⟩ := parse_eq_ok_iff.mp h.parse_self
  refine le_antisymm hheight (Nat.not_lt.mp fun hlt => ?_)
  have hdeep := h.tooDeep_iff.mpr hlt
  rw [parse_eq_ok_iff.mpr ⟨k, hd, le_rfl⟩] at hdeep
  exact absurd hdeep (by simp)

end Levels

end Expr

/-! ## Where the nesting is too deep -/

namespace Parser

/-- A token that opens an operand inside an operand: a sign or a parenthesis. -/
def opens (t : Token) : Bool :=
  (opening? t).isSome

/-- An error for the nesting comes from an operand in the last level that opens another one. -/
def LastLevel (limit room : ℕ) (ts : List Token) (err : CalcError) : Prop :=
  err = .tooDeep limit → room = 1 ∧ ∃ t us, ts = t :: us ∧ opens t = true

/-- In the last level no operand is read that opens another one. -/
lemma operand_of_opens {limit : ℕ} {t : Token} (ht : opens t = true) (ts : List Token) :
    operand limit 1 (t :: ts) = .error (.tooDeep limit) := by
  cases t with
  | plus => rfl
  | minus => rfl
  | openParen => rfl
  | _ => exact absurd ht Bool.noConfusion

/-- An operand that opens no other one is not too deep.

**Proof sketch.** Nothing is opened inside it, so it is a number or refused for its first token. -/
lemma operand_ne_tooDeep {limit room : ℕ} {ts : List Token}
    (hts : ∀ t ∈ ts.head?, opens t = false) :
    operand limit (room + 1) ts ≠ .error (.tooDeep limit) := by
  cases ts with
  | nil => exact fun h => by simp [operand] at h
  | cons t ts =>
    have ht : opens t = false := hts t rfl
    cases t with
    | plus => exact absurd ht Bool.noConfusion
    | minus => exact absurd ht Bool.noConfusion
    | openParen => exact absurd ht Bool.noConfusion
    | number c more =>
      simp only [operand, number]
      split <;> simp
    | times => exact fun h => by simp [operand] at h
    | divide => exact fun h => by simp [operand] at h
    | closeParen => exact fun h => by simp [operand] at h
    | stray c => exact fun h => by simp [operand] at h

/-- Where an operand fails that opens no other one, it is not for the nesting. -/
lemma breaks_of_not_opens {limit room : ℕ} {ts : List Token} {err : CalcError}
    (hts : ∀ t ∈ ts.head?, opens t = false) (h : operand limit (room + 1) ts = .error err) :
    Breaks (LastLevel limit) limit (operand limit (room + 1)) ts err :=
  ⟨[], ts, room + 1, rfl, .refl, fun herr => absurd (herr ▸ h) (operand_ne_tooDeep hts)⟩

/-- **Where the nesting is too deep**, an operand is awaited in the last level and opens another
one, if there is a level at all.

**Proof sketch.** Induction on the room. What a sign or a parenthesis opens in the last level has no
room, and in any other level the nesting is too deep inside of it. -/
theorem breaks_lastLevel (limit room : ℕ) {ts : List Token} {err : CalcError}
    (hts : ∀ t ∈ ts, t.IsLexical) (h : operand limit (room + 1) ts = .error err) :
    Breaks (LastLevel limit) limit (operand limit (room + 1)) ts err := by
  induction room generalizing ts err with
  | zero =>
    by_cases hopens : ∀ t ∈ ts.head?, opens t = false
    · exact breaks_of_not_opens hopens h
    · cases ts with
      | nil => exact absurd (by simp) hopens
      | cons t ts =>
        have ht : opens t = true := by simpa using hopens
        exact ⟨[], _, 1, rfl, .refl, fun _ => ⟨rfl, t, ts, rfl, ht⟩⟩
  | succ room ih =>
    cases ts with
    | nil => exact breaks_of_not_opens (by simp) h
    | cons t ts =>
      rw [List.forall_mem_cons] at hts
      have hsigned : ∀ s : Sign, operand limit (room + 1) ts = .error err →
          Breaks (LastLevel limit) limit (operand limit (room + 2)) (s.token :: ts) err := by
        intro s hinner
        obtain ⟨pre, rest, room', rfl, hawaits, hlast⟩ := ih hts.2 hinner
        exact ⟨s.token :: pre, rest, room', rfl, hawaits.signed s, hlast⟩
      cases t with
      | plus => exact hsigned .plus (eq_error_of_map h)
      | minus => exact hsigned .minus (eq_error_of_map h)
      | openParen =>
        obtain ⟨pre, rest, room', rfl, hawaits, hlast⟩ := breaks_sumOf ih hts.2 (eq_error_of_map h)
        exact ⟨.openParen :: pre, rest, room', rfl, hawaits.paren, hlast⟩
      | _ => exact breaks_of_not_opens (by simp [opens, opening?]) h

end Parser

/-- The characters of the tokens that open an operand. -/
lemma Token.eq_of_opens_ofSymbol {c : Char} (h : Parser.opens (ofSymbol c) = true) :
    c = '+' ∨ c = '-' ∨ c = '(' := by
  rw [← first_ofSymbol c]
  generalize ofSymbol c = t at h
  cases t with
  | plus => exact .inl rfl
  | minus => exact .inr (.inl rfl)
  | openParen => exact .inr (.inr rfl)
  | _ => exact absurd h Bool.noConfusion

namespace Expr

variable {limit : ℕ} {text : List Char}

/-- **Where a text is refused for its nesting**: right after a sign or a parenthesis. In front of it
an operand is awaited in the last level, and what follows it does not matter.

**Proof sketch.** The tokens are cut in front of the token that opens one operand too many
(`Parser.breaks_lastLevel`), and the text is cut there too. This token is no number, so it is the
token of a character, however the text goes on, and in the last level the operand that it begins is
too deep. -/
theorem exists_of_tooDeep (h : parse (limit + 1) text = .error (.tooDeep (limit + 1))) :
    ∃ s c u, text = s ++ c :: u ∧ (c = '+' ∨ c = '-' ∨ c = '(') ∧ Awaits (limit + 1) 1 s ∧
      ∀ w, parse (limit + 1) (s ++ c :: w) = .error (.tooDeep (limit + 1)) := by
  obtain ⟨pre, rest, room, hsplit, hawaits, hlast⟩ :=
    Parser.breaks_sumOf (Parser.breaks_lastLevel (limit + 1) limit)
      (fun _ => Token.isLexical_of_mem_scan) (sum_eq_tooDeep h)
  obtain ⟨rfl, t, us, rfl, ht⟩ := hlast rfl
  obtain ⟨s, u, rfl, hcut, rfl, hu⟩ := Token.exists_cut hsplit
  cases u with
  | nil => exact absurd hu (by simp)
  | cons c u =>
    rcases Token.scan_cons_cases (show c ≠ ' ' by simpa using hcut.visible) with
      ⟨-, hnumber⟩ | ⟨-, hsymbol⟩
    · obtain ⟨more, ts, hts⟩ := hnumber u
      obtain rfl : Token.number c more = t := (List.cons.inj (hts.symm.trans hu)).1
      exact absurd ht Bool.noConfusion
    · obtain rfl : Token.ofSymbol c = t := (List.cons.inj ((hsymbol u).symm.trans hu)).1
      have hs : Awaits (limit + 1) 1 s := .of_scan hawaits
      refine ⟨s, c, u, rfl, Token.eq_of_opens_ofSymbol ht, hs, fun w => hs.parse_of_operand ?_⟩
      rw [hsymbol]
      exact Parser.operand_of_opens ht _

end Expr

/-! ## The limit of the calculator -/

/-- **The limit of nesting is exact.** Read without a limit, with its open operands counted, every
text comes to an end with none of them open, and in a way that is not too deep; for an expression
the count is its height. If no more than 256 operands are open at once, the text is evaluated to
what it was read as. Otherwise it is too deep, and this is so from a sign or a parenthesis on: in
front of it a number would do for an operand, and after it nothing does.

The count decides with a limit what the room decides for the parser. It is the same after an operand
as before it, so that nothing but the nesting counts.

**Proof sketch.** Every text has a number of levels (`Expr.exists_levels`), which its count reaches
without a limit, and 256 levels are enough or not. If they are not, `Expr.exists_of_tooDeep` tells
where the text is refused: an operand is awaited there, so that the text ends too early without one
and has a value with a digit. `Parser.exists_counted` is the same for any reading, from any
count. -/
theorem nesting_limit_exact (text : List Char) :
    (∃ outcome count, Parser.Ends (Expr.ReadsTo none text) outcome count ∧ count.opened = 0 ∧
      (∀ n, outcome ≠ .error (.tooDeep n)) ∧ (∀ e, outcome = .ok e → e.height = count.deepest) ∧
      (count.deepest ≤ 256 → evaluate text = outcome.map Expr.eval) ∧
      (256 < count.deepest → evaluate text = .error (.tooDeep 256) ∧
        ∃ s c u, text = s ++ c :: u ∧ (c = '+' ∨ c = '-' ∨ c = '(') ∧
          evaluate s = .error (.unexpected none) ∧ (∃ v, evaluate (s ++ ['1']) = .ok v) ∧
          ∀ w, evaluate (s ++ c :: w) = .error (.tooDeep 256))) ∧
    (∃ outcome count, Parser.Ends (Expr.ReadsTo (some 256) text) outcome count ∧
      count.opened = 0 ∧ evaluate text = outcome.map Expr.eval) ∧
    ∀ limit? r ts c, ∃ res c', Parser.Ends (Parser.Counted limit? (.await r ts) c) res c' ∧
      c'.opened = c.opened := by
  obtain ⟨n, outcome, h⟩ := Expr.exists_levels text
  obtain ⟨count, hunlimited, hopened, rfl⟩ := h.unlimited
  obtain ⟨count', hlimited, hopened'⟩ := h.limited 256
  refine ⟨⟨outcome, count, hunlimited, hopened, h.ne_tooDeep, fun e => h.height_eq, fun hle => ?_,
    fun hlt => ?_⟩, ⟨_, count', hlimited, hopened', rfl⟩, Parser.exists_counted⟩
  · rw [evaluate, nestingLimit, h.parse_eq, if_pos hle]
  · have hdeep : Expr.parse (255 + 1) text = .error (.tooDeep 256) := h.tooDeep_iff.mpr hlt
    obtain ⟨s, c, u, hsplit, hc, hawaits, hall⟩ := Expr.exists_of_tooDeep hdeep
    have hended : Parser.Refused (255 + 1) 1 (scan []) (.unexpected none) := by
      rw [Token.scan_nil]
      exact .ended
    have hs : evaluate s = .error (.unexpected none) := by
      rw [evaluate_eq_error_iff, ← List.append_nil s]
      exact hawaits.parse_eq_error hended
    exact ⟨evaluate_eq_error_iff.mpr hdeep, s, c, u, hsplit, hc, hs, hawaits.exists_evaluate,
      fun w => evaluate_eq_error_iff.mpr (hall w)⟩

end PocketCalculator
