import Mathlib.Tactic.Common
import PocketCalculator.Proofs.Expression.Descent
import PocketCalculator.Proofs.Expression.Recognition

/-!
# Evaluating with a cursor

Reading with a cursor does what the parser does with the tokens of the text after the cursor: both
succeed on the same texts, the cursor with the value of the parser's expression and in front of the
parser's rest, and both refuse the others for the same cause. The room that the parser is given is
what the count of the cursor leaves up to the limit. So a text has the value that is read from its
front, if nothing is left over.

## Main definitions

* `Cursor.Agrees` — a result of the cursor is that of the parser.
* `Cursor.finish` — what becomes of the value of a text if something is left over.

## Main results

* `Cursor.Runs.agrees` — every call does what the parser does.
* `Cursor.evaluate_eq_finish` — evaluating is reading from the front.
* `Cursor.cursor_discipline` — how the cursor is moved by the functions that read, and that the
  value of a text is what they read.
-/

namespace PocketCalculator

open Token (isNumeric scan ofSymbol)
open PocketCalculator.Parser (Ending)

/-! ## The first token -/

/-- The token of an operator is found where its symbol is. -/
lemma Operator.scan_token (op : Operator) (cs : List Char) :
    scan (op.token.first :: cs) = op.token :: scan cs := by
  cases op <;> exact Token.scan_symbol (by decide) (by decide) cs

/-- The operators that are looked for are those of the rank. -/
lemma Rank.mem_operators {r : Rank} {op : Operator} : op ∈ r.operators ↔ op.rank = r := by
  cases r <;> cases op <;> decide

/-- The operators that join parts are those that are looked for. -/
lemma Rank.operator?_eq_some_iff {r : Rank} {t : Token} {op : Operator} :
    r.operator? t = some op ↔ t = op.token ∧ op ∈ r.operators := by
  rw [mem_operators]
  cases r with
  | operand => cases op <;> simp [operator?, Operator.rank]
  | product => exact Parser.multiplicative?_eq_some_iff
  | sum => exact Parser.additive?_eq_some_iff

namespace Cursor

/-- The token of an opening is found where its symbol is. -/
lemma Opening.scan_token (o : Opening) (cs : List Char) :
    scan (o.token.first :: cs) = o.token :: scan cs := by
  cases o with
  | sign s => cases s <;> exact Token.scan_symbol (by decide) (by decide) cs
  | paren => exact Token.scan_symbol (by decide) (by decide) cs

/-- Every sign and every parenthesis is looked for. -/
lemma Opening.mem_all (o : Opening) : o ∈ all := by
  cases o with
  | sign s => cases s <;> decide
  | paren => decide

variable {text run : List Char} {c d : Cursor} {out : Outcome} {res : Ending}

/-- Spaces that have been passed had no tokens. -/
lemma Advances.scan_rest {n : ℕ} (h : Advances text c (List.replicate n ' ' ++ run) d) :
    scan (c.rest text) = scan (run ++ d.rest text) := by
  rw [h.rest_eq, List.append_assoc, Token.scan_spaces]

/-- Spaces that have been passed had no tokens. -/
lemma Advances.scan_rest_spaces {n : ℕ} (h : Advances text c (List.replicate n ' ') d) :
    scan (c.rest text) = scan (d.rest text) := by
  rw [h.rest_eq, Token.scan_spaces]

/-- If the next character is no space, the next token begins with it.

**Proof sketch.** The first character after the cursor is no space. If it is numeric it begins a
number, and otherwise it is a token by itself, which begins with it. -/
lemma WellFormed.first_eq (h : c.WellFormed text) (hvisible : c.ch ≠ some ' ') :
    (scan (c.rest text)).head?.map Token.first = c.ch := by
  rw [h.ch_eq_head?] at hvisible ⊢
  cases hrest : c.rest text with
  | nil => rw [Token.scan_nil]; rfl
  | cons x cs =>
    have hx : x ≠ ' ' := by simpa [hrest] using hvisible
    rcases Token.scan_cons_cases hx with ⟨-, hnumber⟩ | ⟨-, hsymbol⟩
    · obtain ⟨more, ts, heq⟩ := hnumber cs
      rw [heq]
      rfl
    · rw [hsymbol]
      exact congrArg some (Token.first_ofSymbol x)

/-- Where no operator of a rank is found, none of its tokens follows.

**Proof sketch.** The cursor is at no space, so the next token begins with the next character. The
token of an operator would begin with its symbol, and this has been looked for. -/
lemma no_operator_of_eatFirst_none {r : Rank} (h : c.WellFormed text)
    (hnothing : eatFirst text (fun op => op.token.first) r.operators c = (none, d)) :
    ∀ t ∈ (scan (d.rest text)).head?, r.operator? t = none := by
  obtain ⟨⟨n, hmove⟩, hother, hvisible⟩ := advances_of_eatFirst_none h hnothing
  intro t ht
  refine Option.eq_none_iff_forall_ne_some.mpr fun op hop => ?_
  obtain ⟨rfl, hmem⟩ := Rank.operator?_eq_some_iff.mp hop
  have hfirst := hmove.wellFormed.first_eq (hvisible (List.ne_nil_of_mem hmem))
  rw [Option.mem_def.mp ht] at hfirst
  exact hother op hmem hfirst.symm

/-! ## Results that agree -/

/-- The result of reading with a cursor is that of the parser: an expression with the value that has
been read and the tokens after the cursor, or the same cause of a refusal. -/
inductive Agrees (text : List Char) : Outcome → Ending → Prop
  | ok (e : Expr) (c : Cursor) : Agrees text (.ok e.eval, c) (.ok (e, scan (c.rest text)))
  | error (err : CalcError) (c : Cursor) : Agrees text (.error err, c) (.error err)

namespace Agrees

/-- A number is valued as it is spelled.

**Proof sketch.** The characters that are passed are a longest run of digits and points, which is
scanned as one number. It is not empty, as the loop does not end where it begins. Reading it as a
numeral is reading it as a decimal (`Numeral.read_of_numeric`), with the same fault if it is
none. -/
lemma number (h : c.WellFormed text) {x : Char} (hx : c.ch = some x) (hnum : isNumeric x = true)
    (limit room : ℕ) :
    Agrees text (Cursor.number text c) (Parser.operand limit (room + 1) (scan (c.rest text))) := by
  obtain ⟨run, hmove, hvalue, hall, hstop⟩ := advances_number h
  rcases hnumber : Cursor.number text c with ⟨value, d⟩
  rw [hnumber] at hmove hvalue hstop
  simp only at hmove hvalue hstop
  subst hvalue
  obtain ⟨y, more, rfl⟩ : ∃ y more, run = y :: more := by
    refine List.exists_cons_of_ne_nil ?_
    rintro rfl
    rw [hmove.eq_of_nil h] at hstop
    exact absurd (hstop x hx) (by simp [hnum])
  have hafter : ∀ z ∈ (d.rest text).head?, isNumeric z = false := by
    rwa [← hmove.wellFormed.ch_eq_head?]
  rw [hmove.rest_eq, Token.scan_run hall hafter, Numeral.read_of_numeric hall]
  simp only [Parser.operand, Parser.number]
  cases Numeral.readDecimal (y :: more) with
  | error fault => exact .error _ d
  | ok dec => exact .ok (.number dec) d

/-- An operand that is left stays as it has been read. -/
lemma leave (h : Agrees text out res) : Agrees text (out.1, out.2.leave) res := by
  cases h with
  | ok e c => exact .ok e c.leave
  | error err c => exact .error err c.leave

/-- A sign is applied to what is read after it. -/
lemma signed (s : Sign) (h : Agrees text out res) :
    Agrees text (close text (.sign s) out) (res.map fun (e, rest) => (.signed s e, rest)) := by
  cases h with
  | ok e c => exact .ok (.signed s e) c
  | error err c => exact .error err c

/-- Behind a part in parentheses the closing one is passed if it is there.

**Proof sketch.** The closing parenthesis is looked for behind spaces, which have no tokens. If it
is found it is the next token, and is skipped; if not, the next token is another one, and nothing is
skipped. -/
lemma paren (hout : out.2.WellFormed text) (h : Agrees text out res) :
    Agrees text (close text .paren out)
      (res.map fun (e, rest) => (.paren e, Parser.skipClosing rest)) := by
  cases h with
  | ok e c =>
    have hskip : Parser.skipClosing (scan (c.rest text)) =
        scan ((eat text ')' c).2.rest text) := by
      obtain ⟨n, ⟨-, hmove⟩ | ⟨-, hmove, hvisible, hother⟩⟩ := advances_eat ')' hout
      · rw [hmove.scan_rest, List.singleton_append, Token.scan_symbol (by decide) (by decide)]
        rfl
      · have hfirst := hmove.wellFormed.first_eq hvisible
        rw [hmove.scan_rest_spaces]
        refine Parser.skipClosing_eq_self fun t ht hclosing => hother ?_
        rw [← hfirst, Option.mem_def.mp ht, hclosing]
        rfl
    change Agrees text (.ok e.eval, (eat text ')' c).2)
      (.ok (.paren e, Parser.skipClosing (scan (c.rest text))))
    rw [hskip]
    exact .ok (.paren e) _
  | error err c => exact .error err c

/-- A chain goes on with the values as with the expressions. -/
lemma binary {x : Float} {left : Expr} (op : Operator) (hx : x = left.eval)
    (h : Agrees text out res) : Agrees text (out.1.map (op.apply x), out.2)
      (res.map fun (right, rest) => (.binary op left right, rest)) := by
  subst hx
  cases h with
  | ok e c => exact .ok (.binary op left e) c
  | error err c => exact .error err c

/-- What is read after a sign or a parenthesis becomes the operand that the parser makes of it. -/
lemma opened (o : Opening) {limit room : ℕ} {ts : List Token} (hout : out.2.WellFormed text)
    (h : Agrees text out (Parser.ofRank limit room o.rank ts)) :
    Agrees text (close text o out) (Parser.operand limit (room + 1) (o.token :: ts)) := by
  cases o with
  | sign s =>
    cases s with
    | plus => exact h.signed .plus
    | minus => exact h.signed .minus
  | paren => exact h.paren hout

/-- An operand without an opening is a number or is refused.

**Proof sketch.** If the next character is numeric, a number is read (`Agrees.number`). Otherwise it
is named in the refusal, and so it is by the parser: the next token begins with this character, is
no number, and opens nothing, since no opening was found. -/
lemma literal (h : c.WellFormed text) (hvisible : c.ch ≠ some ' ')
    (hother : ∀ o : Opening, c.ch ≠ some o.token.first) (limit room : ℕ) :
    Agrees text (literal text c) (Parser.operand limit (room + 1) (scan (c.rest text))) := by
  by_cases hnum : c.ch.any isNumeric = true
  · obtain ⟨x, hx, hxnum⟩ := (Option.any_eq_true _ _).mp hnum
    rw [Cursor.literal, if_pos hnum]
    exact number h hx hxnum limit room
  · rw [Cursor.literal, if_neg hnum]
    have hfirst := h.first_eq hvisible
    rcases hscan : scan (c.rest text) with _ | ⟨t, ts⟩
    · rw [hscan] at hfirst
      rw [← hfirst]
      exact .error _ c
    · rw [hscan] at hfirst
      have hch : c.ch = some t.first := hfirst.symm
      rw [hch]
      cases t with
      | plus => exact absurd hch (hother (.sign .plus))
      | minus => exact absurd hch (hother (.sign .minus))
      | openParen => exact absurd hch (hother .paren)
      | number d more =>
        have hlexical := Token.isLexical_of_mem_scan (hscan ▸ List.mem_cons_self)
        exact absurd (hlexical d List.mem_cons_self) (by simpa [hch, Token.first] using hnum)
      | times => exact .error _ c
      | divide => exact .error _ c
      | closeParen => exact .error _ c
      | stray x => exact .error _ c

end Agrees

/-! ## Every call agrees -/

/-- What the parser does where a call is made. -/
def Call.Agrees (text : List Char) : Call → Cursor → Outcome → Prop
  | .level r, c, out => Cursor.Agrees text out
      (Parser.ofRank nestingLimit (nestingLimit - c.depth) r (scan (c.rest text)))
  | .factor, c, out => Cursor.Agrees text out
      (Parser.operand nestingLimit (nestingLimit - c.depth + 1) (scan (c.rest text)))
  | .goOn r x, c, out => ∀ res, Cursor.Agrees text (x, c) res → Cursor.Agrees text out
      (Parser.resume r.operator? (Parser.ofRank nestingLimit (nestingLimit - c.depth) r.part) res)

/-- **Every call does what the parser does** with the tokens after the cursor and with the room that
is left.

**Proof sketch.** Induction on the calls made inside. The room of the parser is what the limit
leaves above the count, so that both run out of it together, and it is the same for all parts of a
chain, because the count is restored behind each (`Runs.spec`). A symbol that is found is the next
token, and where none is found, the next token is none of those looked for. So the parser goes the
same way. -/
theorem Runs.agrees {call : Call} (h : Runs text call c out) (hc : c.WellFormed text) :
    call.Agrees text c out := by
  induction h with
  | tooDeep full =>
    have hroom : nestingLimit - _ = 0 := Nat.sub_eq_zero_of_le full
    simp only [Call.Agrees, hroom]
    exact .error _ _
  | @operand c out room inside ih =>
    have hroom : nestingLimit - c.depth = nestingLimit - c.enter.depth + 1 := by
      simp only [enter]
      omega
    have hinside := ih (hc.enter room)
    simp only [Call.Agrees] at hinside ⊢
    rw [hroom]
    exact hinside.leave
  | chain rank first more ihfirst ihmore =>
    have hkeeps := (first.spec hc).keeps
    have hmore := ihmore hkeeps.wellFormed _ (ihfirst hc)
    simp only [Call.Agrees]
    rw [Parser.ofRank_of_chain rank, Parser.chain_eq_resume]
    rwa [hkeeps.depth_eq] at hmore
  | opened opening part ih =>
    obtain ⟨-, n, hmove⟩ := advances_of_eatFirst_some hc opening
    have hpart := ih hmove.wellFormed
    simp only [Call.Agrees] at hpart ⊢
    rw [hmove.scan_rest, List.singleton_append, Opening.scan_token, ← hmove.depth_eq]
    exact hpart.opened _ (part.spec hmove.wellFormed).keeps.wellFormed
  | single nothing =>
    obtain ⟨⟨n, hmove⟩, hother, hvisible⟩ := advances_of_eatFirst_none hc nothing
    simp only [Call.Agrees]
    rw [hmove.scan_rest_spaces]
    exact .literal hmove.wellFormed (hvisible (by decide)) (fun o => hother o o.mem_all) _ _
  | failed =>
    intro res hres
    cases hres
    exact .error _ _
  | stop nothing =>
    intro res hres
    obtain ⟨⟨n, hmove⟩, -⟩ := advances_of_eatFirst_none hc nothing
    cases hres
    have hstops := no_operator_of_eatFirst_none hc nothing
    rw [hmove.scan_rest_spaces, Parser.resume,
      Parser.links_of_stop (Parser.consumes_ofRank _ _ _) _ hstops]
    exact .ok _ _
  | @link r x op c d part out operator next more ihnext ihmore =>
    intro res hres
    obtain ⟨hmem, n, hmove⟩ := advances_of_eatFirst_some hc operator
    have hkeeps := (next.spec hmove.wellFormed).keeps
    have hnext := ihnext hmove.wellFormed
    simp only [Call.Agrees] at hnext
    cases hres with
    | ok left =>
      have hmore := ihmore hkeeps.wellFormed _ (hnext.binary op rfl)
      have hop : r.operator? op.token = some op := Rank.operator?_eq_some_iff.mpr ⟨rfl, hmem⟩
      rw [hmove.scan_rest, List.singleton_append, Operator.scan_token,
        Parser.resume_link (Parser.consumes_ofRank _ _ _) left hop]
      rwa [hkeeps.depth_eq, hmove.depth_eq] at hmore

/-! ## Whole texts -/

/-- What becomes of the value of a text: nothing may be left over. -/
def finish (text : List Char) : Outcome → Except CalcError Float
  | (.error err, _) => .error err
  | (.ok v, c) => if c.pos < text.length then .error (.unexpected c.ch) else .ok v

/-- **Evaluating is reading from the front**: the value of a text is that of the sum that is read
there.

**Proof sketch.** The call for the sum does what the parser does with all tokens (`Runs.agrees`).
Behind the sum the cursor is at no space (`Runs.spec`), so that it is at the end exactly if no token
is left over, and otherwise looks at the character that the next token begins with. -/
theorem evaluate_eq_finish (h : Runs text (.level .sum) (start text) out) :
    evaluate text = finish text out := by
  have hstart := wellFormed_start text
  have hspec := h.spec hstart
  have hagrees := h.agrees hstart
  change Agrees text out (Parser.sum nestingLimit nestingLimit (scan text)) at hagrees
  generalize hres : Parser.sum nestingLimit nestingLimit (scan text) = res at hagrees
  cases hagrees with
  | error err c => simp only [evaluate, Expr.parse, hres, finish, Except.map]
  | ok e c =>
    have hc := hspec.keeps.wellFormed
    -- No space follows a sum, so that something is left over only if a token is.
    have hvisible : c.ch ≠ some ' ' := fun hspace =>
      absurd (hspec.stops (by simp [Call.before]) _ rfl ' ' hspace) (by decide)
    have hfirst := hc.first_eq hvisible
    rcases hscan : scan (c.rest text) with _ | ⟨t, ts⟩
    · rw [hscan] at hfirst hres
      have hend : ¬c.pos < text.length := by
        rw [hc.ch_eq] at hfirst
        exact Nat.not_lt.mpr (List.getElem?_eq_none_iff.mp hfirst.symm)
      simp only [evaluate, Expr.parse, hres, finish, if_neg hend, Except.map]
    · rw [hscan] at hfirst hres
      have hlt : c.pos < text.length := by
        rw [hc.ch_eq] at hfirst
        exact (List.getElem?_eq_some_iff.mp hfirst.symm).1
      have hch : c.ch = some t.first := hfirst.symm
      simp only [evaluate, Expr.parse, hres, finish, if_pos hlt, Except.map, hch]

/-- **How the cursor is moved.** Looking for a symbol and reading a number keep the cursor well
formed, never move it back and leave its count as it is, and a symbol that is not found costs spaces
only. A call of any function that reads ends, and in one way; it keeps the same of the cursor,
whether it succeeds or not, and does what the parser does with the tokens from there on. An
expression that is read has moved the cursor on, and neither a space nor an operator of its rank or
of a tighter one follows. Evaluating a text is reading a sum from its front and refusing what is
left over.

**Proof sketch.** That calls end, in one way, is `existsUnique_runs`, by induction on the number of
characters left. What a call keeps of the cursor, that it moves it on and what can follow is
`Runs.spec`, by induction on the calls made inside, from what looking for one symbol and reading one
number do. `Runs.agrees` is a second induction on these calls, and `evaluate_eq_finish` is its case
for the sum at the front of the text. -/
theorem cursor_discipline (text : List Char) {c : Cursor} (h : c.WellFormed text) :
    (∀ wanted, Keeps text c (eat text wanted c).2 ∧ ((eat text wanted c).1 = false →
      ∃ n, c.rest text = List.replicate n ' ' ++ (eat text wanted c).2.rest text)) ∧
    Keeps text c (number text c).2 ∧
    (∀ call, ∃! out, Runs text call c out) ∧
    (∀ call out, Runs text call c out → Keeps text c out.2 ∧ call.Agrees text c out) ∧
    (∀ r out v, Runs text (.level r) c out → out.1 = .ok v →
      c.pos < out.2.pos ∧ ∀ s ∈ out.2.ch, s ∉ r.stops) ∧
    ∀ out, Runs text (.level .sum) (start text) out → evaluate text = finish text out := by
  refine ⟨fun wanted => ⟨keeps_eat wanted h, rest_eq_of_eat_eq_false h⟩, ?_,
    fun call => existsUnique_runs call h, fun call out hrun => ?_, fun r out v hrun hv => ?_,
    fun out => evaluate_eq_finish⟩
  · obtain ⟨run, hmove, -⟩ := advances_number h
    exact hmove.keeps
  · exact ⟨(hrun.spec h).keeps, hrun.agrees h⟩
  · exact ⟨(hrun.spec h).gains v hv, (hrun.spec h).stops (by simp [Call.before]) v hv⟩

/-- With all but one of the operands open, a minus is still read, and what follows it is too deep:
the cursor has moved on, and as many operands are open as before. -/
theorem cursor_discipline_near_limit :
    WellFormed "7 -(4".toList ⟨2, some '-', 255⟩ ∧
      ∀ out, Runs "7 -(4".toList (.level .operand) ⟨2, some '-', 255⟩ out ↔
        out = (.error (.tooDeep 256), ⟨3, some '(', 255⟩) := by
  have hc : WellFormed "7 -(4".toList ⟨2, some '-', 255⟩ := ⟨by decide, by decide, by decide⟩
  have hminus : eatFirst "7 -(4".toList (fun o => o.token.first) Opening.all
      ⟨2, some '-', 256⟩ = (some (.sign .minus), ⟨3, some '(', 256⟩) := by
    simp [eatFirst, Opening.all, Opening.token, Sign.token, Token.first, eat, skipWhile, next]
  have hdeep : Runs "7 -(4".toList (.level .operand) ⟨3, some '(', 256⟩
      (.error (.tooDeep 256), ⟨3, some '(', 256⟩) := .tooDeep le_rfl
  have hinside : Runs "7 -(4".toList .factor ⟨2, some '-', 256⟩
      (.error (.tooDeep 256), ⟨3, some '(', 256⟩) := .opened hminus hdeep
  have hrun := Runs.operand (c := ⟨2, some '-', 255⟩) (Nat.lt_succ_self 255) hinside
  obtain ⟨-, -, hends, -⟩ := cursor_discipline "7 -(4".toList hc
  refine ⟨hc, fun out => ⟨fun hout => (hends _).unique hout hrun, ?_⟩⟩
  rintro rfl
  exact hrun

end Cursor

end PocketCalculator
