import Mathlib.Tactic.Common
import PocketCalculator.Proofs.Expression.Recognition

/-!
# Where reading fails

Reading fails in two ways. Either an operand is awaited and what comes next begins none, or a whole
expression has been read and something follows that does not continue it. In both ways the tokens
before decide what would be read there, and only the next token decides that it is not: the tokens
after it are never looked at.

## Main definitions

* `Parser.Awaits` — after these tokens the parser reads an operand and nothing else.
* `Parser.Refused` — why no operand can begin with the next token.
* `Expr.Awaits` — after this text an operand is read.

## Main results

* `Parser.breaks_operand`, `Parser.breaks_sum` — the parser fails only where it awaits an operand.
* `Expr.parse_error_cases` — the two ways in which reading a text fails.
-/

namespace PocketCalculator

namespace Parser

/-! ## Awaiting an operand -/

/-- After the tokens `pre`, the parser `item` reads an operand with `room` left: it fails if the
operand does, and it comes to the end of the tokens if the operand does. -/
structure Awaits (limit : ℕ) (item : Parser) (room : ℕ) (pre : List Token) : Prop where
  /-- The number that is awaited is a token of its own. -/
  apart : ∀ t ∈ pre.getLast?, t.isNumber = false
  /-- The parser fails as the operand does. -/
  refuse : ∀ ⦃rest : List Token⦄ ⦃err : CalcError⦄, operand limit room rest = .error err →
    item (pre ++ rest) = .error err
  /-- The parser ends with an operand that uses up all tokens. -/
  accept : ∀ ⦃rest : List Token⦄ ⦃e : Expr⦄, operand limit room rest = .ok (e, []) →
    ∃ e', item (pre ++ rest) = .ok (e', [])

namespace Awaits

variable {limit room n : ℕ} {pre : List Token} {item : Parser}
  {operator? : Token → Option Operator}

/-- The last token stays no number if another token is put in front that is none.

**Proof sketch.** If there are tokens behind the first, the last of them is the last of all, and
otherwise the first one is. -/
lemma apart_cons {t : Token} (ht : t.isNumber = false)
    (h : ∀ u ∈ pre.getLast?, u.isNumber = false) :
    ∀ u ∈ (t :: pre).getLast?, u.isNumber = false := by
  intro u hu
  rw [List.getLast?_cons, Option.mem_some_iff] at hu
  subst hu
  cases hlast : pre.getLast? with
  | none => exact ht
  | some u => exact h u hlast

/-- An operand awaits itself. -/
lemma refl : Awaits limit (operand limit room) room [] where
  apart := by simp
  refuse _ _ h := h
  accept _ e h := ⟨e, h⟩

/-- After a sign an operand is awaited.

**Proof sketch.** After a sign the parser goes on with the operand behind it, and what becomes of
that operand becomes of the signed one. -/
lemma signed (s : Sign) (h : Awaits limit (operand limit n) room pre) :
    Awaits limit (operand limit (n + 1)) room (s.token :: pre) where
  apart := apart_cons (by cases s <;> rfl) h.apart
  refuse rest err hrest := by
    have hinner := h.refuse hrest
    cases s <;> simp only [List.cons_append, Sign.token, operand, hinner, Except.map]
  accept rest e hrest := by
    obtain ⟨e', hinner⟩ := h.accept hrest
    refine ⟨.signed s e', ?_⟩
    cases s <;> simp only [List.cons_append, Sign.token, operand, hinner, Except.map]

/-- After an opening parenthesis a sum is awaited.

**Proof sketch.** After an opening parenthesis the parser goes on with a sum. If this fails so does
the operand, and if it ends with the tokens, no closing parenthesis is left to be asked for. -/
lemma paren (h : Awaits limit (sum limit n) room pre) :
    Awaits limit (operand limit (n + 1)) room (.openParen :: pre) where
  apart := apart_cons rfl h.apart
  refuse rest err hrest := by
    have hinner : sumOf (operand limit n) (pre ++ rest) = .error err := h.refuse hrest
    simp only [List.cons_append, operand, hinner, Except.map]
  accept rest e hrest := by
    obtain ⟨e', hsum⟩ := h.accept hrest
    have hinner : sumOf (operand limit n) (pre ++ rest) = .ok (e', []) := hsum
    refine ⟨.paren e', ?_⟩
    simp only [List.cons_append, operand, hinner, Except.map, skipClosing]

/-- A chain begins with an operand of its own. -/
lemma first (h : Awaits limit item room pre) :
    Awaits limit (chain operator? item) room pre where
  apart := h.apart
  refuse rest err hrest := by simp only [chain, h.refuse hrest]
  accept rest e hrest := by
    obtain ⟨e', hitem⟩ := h.accept hrest
    exact ⟨e', chain_of_ok hitem⟩

/-- A chain goes on with an operand of its own after an operator.

**Proof sketch.** What was read before the operator is read in the same way whatever follows the
operator, so the loop is at this operator again. Then it goes on with an operand of its own, fails
if that does, and ends with it where the tokens end. -/
lemma link (hitem : Consumes item) (h : Awaits limit item room pre) {used : List Token}
    {left : Expr} {t : Token} {op : Operator} (hop : operator? t = some op)
    (ht : t.isNumber = false)
    (hused : ∀ rest, chain operator? item (used ++ t :: rest) =
      links operator? item left (t :: rest)) :
    Awaits limit (chain operator? item) room (used ++ t :: pre) where
  apart := by
    rw [List.getLast?_append_of_ne_nil _ (List.cons_ne_nil t pre)]
    exact apart_cons ht h.apart
  refuse rest err hrest := by
    rw [List.append_assoc, List.cons_append, hused, links_cons hitem, hop]
    simp only [h.refuse hrest]
  accept rest e hrest := by
    obtain ⟨e', hright⟩ := h.accept hrest
    rw [List.append_assoc, List.cons_append, hused, links_of_link hitem left hop hright]
    exact ⟨_, rfl⟩

end Awaits

/-! ## Refusing an operand -/

/-- Whether an operand can begin with a token. -/
def begins : Token → Bool
  | .number _ _ | .plus | .minus | .openParen => true
  | .times | .divide | .closeParen | .stray _ => false

/-- `Refused limit room ts err` says that the tokens `ts` do not begin with an operand and that this
is seen before anything inside an operand has been read. -/
inductive Refused (limit : ℕ) : ℕ → List Token → CalcError → Prop
  /-- Without room nothing is looked at. -/
  | tooDeep {ts : List Token} : Refused limit 0 ts (.tooDeep limit)
  /-- The tokens are at their end. -/
  | ended {room : ℕ} : Refused limit (room + 1) [] (.unexpected none)
  /-- The next token begins no operand. -/
  | symbol {room : ℕ} {t : Token} {ts : List Token} (none : begins t = false) :
    Refused limit (room + 1) (t :: ts) (.unexpected (some t.first))
  /-- The next token is a run that is no number. -/
  | number {room : ℕ} {c : Char} {more : List Char} {ts : List Token}
    (none : Decimal.ofText? (c :: more) = none) :
    Refused limit (room + 1) (.number c more :: ts) (.badNumber (c :: more) .malformed)

/-- Where an operand is refused, reading it fails.

**Proof sketch.** Without room, without tokens or with a token that begins no operand the parser
fails at once, and a run that is no decimal is malformed. -/
lemma Refused.operand {limit room : ℕ} {ts : List Token} {err : CalcError}
    (h : Refused limit room ts err) : operand limit room ts = .error err := by
  cases h with
  | tooDeep => rfl
  | ended => rfl
  | @symbol room t ts hnone =>
    cases t with
    | number c more => exact absurd hnone Bool.noConfusion
    | plus => exact absurd hnone Bool.noConfusion
    | minus => exact absurd hnone Bool.noConfusion
    | openParen => exact absurd hnone Bool.noConfusion
    | _ => rfl
  | number hnone =>
    have hread := Numeral.readDecimal_eq_error_iff.mpr ⟨hnone, rfl⟩
    simp only [Parser.operand, Parser.number, hread]

/-- `Breaks refused limit item ts err` says that the parser `item` awaits an operand after some of
the tokens `ts`, and that `refused` says of the room for it and of the tokens left why it fails. -/
def Breaks (refused : ℕ → List Token → CalcError → Prop) (limit : ℕ) (item : Parser)
    (ts : List Token) (err : CalcError) : Prop :=
  ∃ pre rest room, ts = pre ++ rest ∧ Awaits limit item room pre ∧ refused room rest err

/-! ## Where the parser fails -/

/-- What is done with a result fails only if there is none. -/
lemma eq_error_of_map {α β : Type*} {x : Except CalcError α} {f : α → β} {err : CalcError}
    (h : x.map f = .error err) : x = .error err := by
  cases x with
  | error err' => exact congrArg Except.error (Except.error.inj h)
  | ok a => exact absurd h (by simp [Except.map])

/-- A chain breaks where one of its operands does.

**Proof sketch.** If it is the first operand, nothing is read before it. Otherwise what was read
before it is closed, since an operator follows, and is read again whatever comes after this
operator (`hback`). -/
lemma breaks_chain {operator? : Token → Option Operator} {item : Parser} {ro ri : Rank}
    {limit room : ℕ} {refused : ℕ → List Token → CalcError → Prop}
    (hlevel : IsLevel operator? item ro ri room)
    (hback : ∀ {used rest : List Token} {left : Expr} {t : Token} {op : Operator},
      operator? t = some op → Derives ro used left → left.height ≤ room →
        chain operator? item (used ++ t :: rest) = links operator? item left (t :: rest))
    (hbreaks : ∀ {ts : List Token} {err : CalcError}, (∀ t ∈ ts, t.IsLexical) →
      item ts = .error err → Breaks refused limit item ts err)
    {ts : List Token} {err : CalcError} (hts : ∀ t ∈ ts, t.IsLexical)
    (h : chain operator? item ts = .error err) :
    Breaks refused limit (chain operator? item) ts err := by
  cases hfirst : item ts with
  | error err' =>
    obtain rfl : err' = err := by simpa [chain, hfirst] using h
    obtain ⟨pre, rest, room', hsplit, hawaits, hrefused⟩ := hbreaks hts hfirst
    exact ⟨pre, rest, room', hsplit, hawaits.first, hrefused⟩
  | ok r =>
    obtain ⟨left, mid⟩ := r
    rw [chain_of_ok hfirst] at h
    have hleft : Accounts ro room ts left mid := (hlevel.sound hts hfirst).single hlevel.single
    rcases links_cases hlevel.consumes (P := Accounts ro room ts)
        (fun _ _ _ _ _ _ => hlevel.step hts) hleft with
      ⟨e, rest, hend, -⟩ | ⟨left', t, us, op, err', hend, haccounts, hop, hright⟩
    · rw [h] at hend
      exact absurd hend (by simp)
    · obtain rfl : err = err' := Except.error.inj (h.symm.trans hend)
      obtain ⟨used, k, rfl, hd, hheight, hk⟩ := haccounts
      have hnot := (hlevel.rule hop).1
      obtain rfl : k = 0 := hk.resolve_right fun hstops => hnot (hstops t rfl)
      rw [List.replicate_zero, List.append_nil] at hd
      have hus : ∀ u ∈ us, u.IsLexical := fun u hu =>
        hts u (List.mem_append_right _ (List.mem_cons_of_mem _ hu))
      obtain ⟨pre, rest, room', rfl, hawaits, hrefused⟩ := hbreaks hus hright
      have hnumber : t.isNumber = false := by
        cases t with
        | number c more => exact absurd ⟨by simp, rfl, rfl⟩ hnot
        | _ => rfl
      refine ⟨used ++ t :: pre, rest, room', by simp, ?_, hrefused⟩
      exact hawaits.link hlevel.consumes hop hnumber fun rest => hback hop hd hheight

section Levels

variable {limit room : ℕ} {refused : ℕ → List Token → CalcError → Prop}
  (hbreaks : ∀ {ts : List Token} {err : CalcError}, (∀ t ∈ ts, t.IsLexical) →
    operand limit room ts = .error err → Breaks refused limit (operand limit room) ts err)
  {ts : List Token} {err : CalcError} (hts : ∀ t ∈ ts, t.IsLexical)

include hbreaks hts

/-- A product breaks where one of its operands does. -/
lemma breaks_productOf (h : product limit room ts = .error err) :
    Breaks refused limit (product limit room) ts err :=
  breaks_chain (isLevel_product (accounts_operand limit room))
    (fun _ hd hheight => reads_of_derives hd hheight (k := 0) (List.append_nil _) (.inl rfl))
    hbreaks hts h

/-- A sum breaks where one of its products does.

**Proof sketch.** This is `breaks_chain` for the chain of products. What was read before an operator
of sums is a sum, and it is read as such whatever comes after the operator, because an operator of
sums does not continue a product. -/
lemma breaks_sumOf (h : sum limit room ts = .error err) :
    Breaks refused limit (sum limit room) ts err := by
  refine breaks_chain (isLevel_sum (accounts_operand limit room)) ?_ (breaks_productOf hbreaks)
    hts h
  intro used rest left t op hop hd hheight
  have hreads : Reads limit room .sum (used ++ t :: rest) left (t :: rest) :=
    reads_of_derives hd hheight (k := 0) (List.append_nil _) (.inl rfl)
  refine hreads fun u hu => ?_
  obtain rfl : t = u := by simpa using hu
  obtain ⟨rfl, hrank⟩ := additive?_eq_some_iff.mp hop
  cases op <;> first | rfl | exact absurd hrank (by decide)

end Levels

/-- **Where reading an operand fails**, an operand was awaited and refused.

**Proof sketch.** Induction on the room. A sign or an opening parenthesis is read in any case, and
then what fails is inside. -/
theorem breaks_operand (limit room : ℕ) {ts : List Token} {err : CalcError}
    (hts : ∀ t ∈ ts, t.IsLexical) (h : operand limit room ts = .error err) :
    Breaks (Refused limit) limit (operand limit room) ts err := by
  induction room generalizing ts err with
  | zero =>
    obtain rfl : .tooDeep limit = err := Except.error.inj h
    exact ⟨[], ts, 0, rfl, .refl, .tooDeep⟩
  | succ room ih =>
    cases ts with
    | nil =>
      obtain rfl : .unexpected none = err := Except.error.inj h
      exact ⟨[], [], room + 1, rfl, .refl, .ended⟩
    | cons t ts =>
      rw [List.forall_mem_cons] at hts
      have hsigned : ∀ s : Sign, operand limit room ts = .error err →
          Breaks (Refused limit) limit (operand limit (room + 1)) (s.token :: ts) err := by
        intro s hinner
        obtain ⟨pre, rest, room', rfl, hawaits, hrefused⟩ := ih hts.2 hinner
        exact ⟨s.token :: pre, rest, room', rfl, hawaits.signed s, hrefused⟩
      have hsymbol : ∀ t : Token, begins t = false → .unexpected (some t.first) = err →
          Breaks (Refused limit) limit (operand limit (room + 1)) (t :: ts) err := by
        rintro t hnone rfl
        exact ⟨[], t :: ts, room + 1, rfl, .refl, .symbol hnone⟩
      cases t with
      | plus => exact hsigned .plus (eq_error_of_map h)
      | minus => exact hsigned .minus (eq_error_of_map h)
      | openParen =>
        obtain ⟨pre, rest, room', rfl, hawaits, hrefused⟩ :=
          breaks_sumOf ih hts.2 (eq_error_of_map h)
        exact ⟨.openParen :: pre, rest, room', rfl, hawaits.paren, hrefused⟩
      | number c more =>
        simp only [operand, number] at h
        split at h
        · simp at h
        · next fault hfault =>
          obtain ⟨hnone, rfl⟩ := Numeral.readDecimal_eq_error_iff.mp hfault
          obtain rfl : .badNumber (c :: more) .malformed = err := Except.error.inj h
          exact ⟨[], .number c more :: ts, room + 1, rfl, .refl, .number hnone⟩
      | times => exact hsymbol .times rfl (Except.error.inj h)
      | divide => exact hsymbol .divide rfl (Except.error.inj h)
      | closeParen => exact hsymbol .closeParen rfl (Except.error.inj h)
      | stray c => exact hsymbol (.stray c) rfl (Except.error.inj h)

/-- Where reading a sum fails, an operand was awaited and refused.

**Proof sketch.** Operands break where one is refused (`breaks_operand`), and so products do, and
then sums. -/
theorem breaks_sum (limit room : ℕ) {ts : List Token} {err : CalcError}
    (hts : ∀ t ∈ ts, t.IsLexical) (h : sum limit room ts = .error err) :
    Breaks (Refused limit) limit (sum limit room) ts err :=
  breaks_sumOf (breaks_operand limit room) hts h

end Parser

/-! ## Whole texts -/

namespace Expr

open Token (scan isNumeric)

variable {limit room : ℕ} {s u : List Char} {err : CalcError}

/-- After the text `s` an operand is read, with `room` left. -/
structure Awaits (limit room : ℕ) (s : List Char) : Prop where
  /-- A number would be one of its own. -/
  apart : ∀ x ∈ s.getLast?, isNumeric x = false
  /-- The parser awaits an operand. -/
  tokens : Parser.Awaits limit (Parser.sum limit limit) room (scan s)

/-- Where the tokens of a text leave the parser awaiting an operand, the text does not end inside a
number.

**Proof sketch.** If the text ended with a digit or a point, its last token would be a number
(`Token.getLast?_scan`). -/
lemma Awaits.of_scan (h : Parser.Awaits limit (Parser.sum limit limit) room (scan s)) :
    Awaits limit room s where
  apart x hx := by
    by_contra hnum
    rw [Bool.not_eq_false] at hnum
    obtain ⟨c, more, hlast⟩ := Token.getLast?_scan hx hnum
    exact absurd (h.apart _ hlast) Bool.noConfusion
  tokens := h

/-- What follows is scanned by itself. -/
lemma Awaits.scan_append (h : Awaits limit room s) (u : List Char) :
    scan (s ++ u) = scan s ++ scan u :=
  Token.scan_append fun x hx _ _ hnum => absurd ((h.apart x hx).symm.trans hnum) Bool.noConfusion

/-- A text fails as the operand that is awaited does. -/
lemma Awaits.parse_of_operand (h : Awaits limit room s)
    (hu : Parser.operand limit room (scan u) = .error err) : parse limit (s ++ u) = .error err := by
  have hsum := h.tokens.refuse hu
  rw [← h.scan_append] at hsum
  simp only [parse, hsum]

/-- A text fails where the operand that is awaited is refused. -/
lemma Awaits.parse_eq_error (h : Awaits limit room s)
    (hu : Parser.Refused limit room (scan u) err) : parse limit (s ++ u) = .error err :=
  h.parse_of_operand hu.operand

/-- A symbol that begins no operand is refused where one is awaited, however the text goes on.

**Proof sketch.** The symbol is the next token, and as it begins no operand, this is what is
refused. -/
lemma Awaits.parse_symbol (h : Awaits limit (room + 1) s) {c : Char} (hnum : isNumeric c = false)
    (hc : c ≠ ' ') (hbegins : Parser.begins (Token.ofSymbol c) = false) (w : List Char) :
    parse limit (s ++ c :: w) = .error (.unexpected (some c)) := by
  have hrefused : Parser.Refused limit (room + 1) (scan (c :: w))
      (.unexpected (some (Token.ofSymbol c).first)) := by
    rw [Token.scan_symbol hnum hc]
    exact .symbol hbegins
  rw [Token.first_ofSymbol] at hrefused
  exact h.parse_eq_error hrefused

/-- A text is read if it ends with a number where an operand is awaited.

**Proof sketch.** A digit is a number by itself, and reading it leaves no tokens. So the parser
comes to the end of the text. -/
lemma Awaits.exists_parse (h : Awaits limit (room + 1) s) :
    ∃ e, parse limit (s ++ ['1']) = .ok e := by
  have hone : scan ['1'] = [.number '1' []] := by
    rw [Token.scan_numeric (by decide), List.takeWhile_nil, List.dropWhile_nil, Token.scan_nil]
  have hoperand : Parser.operand limit (room + 1) (scan ['1']) = .ok (.number ⟨1, 0⟩, []) := by
    rw [hone]
    rfl
  obtain ⟨e, hsum⟩ := h.tokens.accept hoperand
  rw [← h.scan_append] at hsum
  exact ⟨e, by simp only [parse, hsum]⟩

/-- What follows a whole expression and does not continue it is refused, and its first character is
named.

**Proof sketch.** The parser reads the expression and stops before the next token, as this does not
continue it, whether the parentheses are closed or not (`Parser.sum_of_derives`). So this token is
left over. -/
lemma parse_eq_error_of_leftover {c : Char} {e : Expr} {k : ℕ} {t : Token} {ts : List Token}
    (hd : Derives .sum (scan s ++ List.replicate k .closeParen) e) (hheight : e.height ≤ limit)
    (hscan : scan (s ++ u) = scan s ++ t :: ts) (hfirst : t.first = c)
    (hk : k = 0 ∨ Parser.Stops t)
    (hstop : Parser.multiplicative? t = none ∧ Parser.additive? t = none) :
    parse limit (s ++ u) = .error (.unexpected (some c)) := by
  have hsum : Parser.sum limit limit (scan s ++ t :: ts) = .ok (e, t :: ts) :=
    Parser.sum_of_derives hd hheight (by simpa using hk) (by simpa using hstop)
  simp only [parse, hscan, hsum, hfirst]

/-- **The two ways in which reading a text fails.** Either an operand is awaited and refused, or the
text so far is an expression and the next character does not continue it; then the text fails in
the same way however it goes on after this character.

**Proof sketch.** The tokens are cut where the parser gets stuck, and the text is cut there too. A
further token that begins with the same character is the same one, unless both are numbers, which
do not continue an expression either. -/
theorem parse_error_cases {text : List Char} (h : parse limit text = .error err) :
    (∃ s u room, text = s ++ u ∧ u.head? ≠ some ' ' ∧ Awaits limit room s ∧
      Parser.Refused limit room (scan u) err) ∨
    (∃ s c u, text = s ++ c :: u ∧ c ≠ ' ' ∧ err = .unexpected (some c) ∧
      (∃ e, parse limit s = .ok e) ∧
      ∀ w, parse limit (s ++ c :: w) = .error (.unexpected (some c))) := by
  have hlexical : ∀ t ∈ scan text, t.IsLexical := fun t => Token.isLexical_of_mem_scan
  unfold parse at h
  split at h
  · next err' hsum =>
    obtain rfl : err' = err := Except.error.inj h
    obtain ⟨pre, rest, room, hsplit, hawaits, hrefused⟩ :=
      Parser.breaks_sum limit limit hlexical hsum
    obtain ⟨s, u, rfl, hcut, rfl, rfl⟩ := Token.exists_cut hsplit
    exact .inl ⟨s, u, room, rfl, hcut.visible, .of_scan hawaits, hrefused⟩
  · exact absurd h (by simp)
  · next e t ts hsum =>
    obtain rfl : .unexpected (some t.first) = err := Except.error.inj h
    have hstop := Parser.sum_stops hsum t rfl
    obtain ⟨pre, k, hsplit, hd, hheight, hk⟩ := Parser.accounts_sum limit limit hlexical hsum
    obtain ⟨s, u, rfl, hcut, rfl, hu⟩ := Token.exists_cut hsplit
    cases u with
    | nil => exact absurd hu (by simp)
    | cons c u =>
      have hc : c ≠ ' ' := by simpa using hcut.visible
      have hscan : ∀ w, scan (s ++ c :: w) = scan s ++ scan (c :: w) := fun w =>
        Token.scan_append hcut.apart
      have hk' : k = 0 ∨ Parser.Stops t := hk.imp_right fun hstops => hstops t rfl
      have hparse : ∃ e, parse limit s = .ok e := ⟨e, parse_eq_ok_iff.mpr ⟨k, hd, hheight⟩⟩
      rcases Token.scan_cons_cases hc with ⟨-, hnumber⟩ | ⟨-, hsymbol⟩
      · obtain ⟨more, ts', hts'⟩ := hnumber u
        obtain ⟨rfl, rfl⟩ : Token.number c more = t ∧ ts' = ts := List.cons.inj (hts'.symm.trans hu)
        refine .inr ⟨s, c, u, rfl, hc, rfl, hparse, fun w => ?_⟩
        obtain ⟨more', ts', hts'⟩ := hnumber w
        exact parse_eq_error_of_leftover hd hheight (by rw [hscan, hts']) rfl
          (.inr ⟨by simp, rfl, rfl⟩) ⟨rfl, rfl⟩
      · obtain ⟨rfl, rfl⟩ : Token.ofSymbol c = t ∧ scan u = ts :=
          List.cons.inj ((hsymbol u).symm.trans hu)
        have hfirst := Token.first_ofSymbol c
        rw [hfirst]
        refine .inr ⟨s, c, u, rfl, hc, rfl, hparse, fun w => ?_⟩
        exact parse_eq_error_of_leftover hd hheight (by rw [hscan, hsymbol]) hfirst hk' hstop

end Expr

end PocketCalculator
