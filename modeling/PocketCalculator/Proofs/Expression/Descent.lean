import Mathlib.Tactic.Common
import PocketCalculator.Proofs.Expression.Cursor
import PocketCalculator.Proofs.Expression.Levels

/-!
# Descending with a cursor

Expressions of all ranks are read by functions that call each other and that move one cursor. Their
loops and calls have no bound of their own, so that a call and what it ends with are related here,
and that every call does end is a theorem. It rests on what the calls keep: a call that succeeds has
moved the cursor on, and so a chain has no more parts than the text has characters.

## Main definitions

* `Cursor.Call` — the functions that read, with their arguments.
* `Cursor.Runs` — a call at a cursor and what it ends with.
* `Cursor.Spec` — what a call keeps, how far it moves on, and what cannot follow then.

## Main results

* `Cursor.Runs.spec` — every call does as it is specified.
* `Cursor.existsUnique_runs` — every call ends, and in one way.
-/

namespace PocketCalculator

open Token (isNumeric)

/-! ## Symbols -/

/-- The operators that join the parts of a chain of a rank, in the order they are looked for. -/
def Rank.operators : Rank → List Operator
  | .operand => []
  | .product => [.mul, .div]
  | .sum => [.add, .sub]

/-- The characters that an expression of a rank is never followed by. -/
def Rank.stops : Rank → List Char
  | .operand => []
  | .product => [' ', '*', '/']
  | .sum => [' ', '+', '-', '*', '/']

/-- A character that stops a chain is a space, one of its operators, or stops its parts. -/
lemma Rank.mem_stops {r : Rank} {s : Char} (h : s ∈ r.stops) :
    r.operators ≠ [] ∧ (s = ' ' ∨ (∃ op ∈ r.operators, s = op.token.first) ∨ s ∈ r.part.stops) := by
  cases r <;> revert h <;> simp [stops, operators, part, Operator.token, Token.first]
  tauto

/-- Where anything stops a chain, a space does. -/
lemma Rank.space_mem_stops {r : Rank} {s : Char} (h : s ∈ r.stops) : ' ' ∈ r.stops := by
  cases r with
  | operand => exact absurd h List.not_mem_nil
  | product => decide
  | sum => decide

namespace Cursor

/-- What an operand may begin with before the part that it holds. -/
inductive Opening
  | sign (s : Sign)
  | paren
deriving DecidableEq, Repr

namespace Opening

/-- All openings, in the order they are looked for. -/
def all : List Opening :=
  [.sign .plus, .sign .minus, .paren]

/-- The token of an opening. -/
def token : Opening → Token
  | sign s => s.token
  | paren => .openParen

/-- The rank of the part after an opening. -/
def rank : Opening → Rank
  | sign _ => .operand
  | paren => .sum

end Opening

/-! ## Calls -/

/-- The functions that read. -/
inductive Call
  /-- An expression of rank `r` is read. -/
  | level (r : Rank)
  /-- An operand is open, and what it is made of is read. -/
  | factor
  /-- A chain of rank `r` goes on with what has been read of it, if that was not refused. -/
  | goOn (r : Rank) (x : Except CalcError Float)

/-- What becomes of the part after an opening. A sign is applied to it; behind a part in parentheses
the closing one is passed if it is there. -/
def close (text : List Char) : Opening → Outcome → Outcome
  | .sign s, (res, c) => (res.map s.apply, c)
  | .paren, (.ok v, c) => (.ok v, (eat text ')' c).2)
  | .paren, (.error err, c) => (.error err, c)

/-- An operand without an opening is a number. -/
def literal (text : List Char) (c : Cursor) : Outcome :=
  if c.ch.any isNumeric then number text c else (.error (.unexpected c.ch), c)

/-- `Runs text call c out` says that a call at the cursor `c` ends with `out`. -/
inductive Runs (text : List Char) : Call → Cursor → Outcome → Prop
  /-- An operand may be one too many. -/
  | tooDeep {c : Cursor} (full : nestingLimit ≤ c.depth) :
    Runs text (.level .operand) c (.error (.tooDeep nestingLimit), c)
  /-- Else it is open until it has been read, in whichever way that ends. -/
  | operand {c : Cursor} {out : Outcome} (room : c.depth < nestingLimit)
    (inside : Runs text .factor c.enter out) :
    Runs text (.level .operand) c (out.1, out.2.leave)
  /-- A product or a sum begins with its first part. -/
  | chain {r : Rank} {c : Cursor} {part out : Outcome} (rank : r ≠ .operand)
    (first : Runs text (.level r.part) c part) (more : Runs text (.goOn r part.1) part.2 out) :
    Runs text (.level r) c out
  /-- A sign and a parenthesis have an expression after them. -/
  | opened {o : Opening} {c d : Cursor} {out : Outcome}
    (opening : eatFirst text (fun o => o.token.first) Opening.all c = (some o, d))
    (part : Runs text (.level o.rank) d out) : Runs text .factor c (close text o out)
  /-- Where there is neither, there has to be a number. -/
  | single {c d : Cursor}
    (nothing : eatFirst text (fun o => o.token.first) Opening.all c = (none, d)) :
    Runs text .factor c (literal text d)
  /-- A part that is refused ends a chain. -/
  | failed {r : Rank} {err : CalcError} {c : Cursor} :
    Runs text (.goOn r (.error err)) c (.error err, c)
  /-- A chain ends where none of its operators follows. -/
  | stop {r : Rank} {x : Float} {c d : Cursor}
    (nothing : eatFirst text (fun op => op.token.first) r.operators c = (none, d)) :
    Runs text (.goOn r (.ok x)) c (.ok x, d)
  /-- A chain goes on with an operator and a part. -/
  | link {r : Rank} {x : Float} {op : Operator} {c d : Cursor} {part out : Outcome}
    (operator : eatFirst text (fun op => op.token.first) r.operators c = (some op, d))
    (next : Runs text (.level r.part) d part)
    (more : Runs text (.goOn r (part.1.map (op.apply x))) part.2 out) :
    Runs text (.goOn r (.ok x)) c out

/-! ## What every call does -/

namespace Call

/-- The rank of what is read. -/
def rank : Call → Rank
  | level r => r
  | factor => .operand
  | goOn r _ => r

/-- How far the cursor moves on at least. Only a chain that goes on may stay where it is. -/
def gain : Call → ℕ
  | goOn _ _ => 0
  | _ => 1

/-- What does not follow when the call is made: a chain goes on after a part. -/
def before : Call → List Char
  | goOn r _ => r.part.stops
  | _ => []

end Call

/-- What a call does. -/
structure Spec (text : List Char) (call : Call) (c : Cursor) (out : Outcome) : Prop where
  /-- The cursor keeps what it has to keep, whether the call succeeds or not. -/
  keeps : Keeps text c out.2
  /-- A call that succeeds moves on. -/
  gains : ∀ v, out.1 = .ok v → c.pos + call.gain ≤ out.2.pos
  /-- After a call that succeeds, what stops its rank does not follow. -/
  stops : (∀ s ∈ c.ch, s ∉ call.before) → ∀ v, out.1 = .ok v → ∀ s ∈ out.2.ch, s ∉ call.rank.stops

variable {text : List Char} {r : Rank} {c d : Cursor} {part out : Outcome}

/-- A chain that goes on to a value has read one. -/
lemma Runs.exists_ok {x : Except CalcError Float} (h : Runs text (.goOn r x) c out) {v : Float}
    (hv : out.1 = .ok v) : ∃ w, x = .ok w := by
  cases x with
  | ok w => exact ⟨w, rfl⟩
  | error err =>
    cases h
    exact absurd hv (by simp)

/-- Reading a number goes on in the text, and moves on if there is one.

**Proof sketch.** If the next character is numeric, a run is passed that ends before a character
which is not. So the run is not empty. Otherwise the number is refused where the cursor is. -/
lemma spec_literal (h : c.WellFormed text) : Keeps text c (literal text c).2 ∧
    ∀ v, (literal text c).1 = .ok v → c.pos < (literal text c).2.pos := by
  unfold literal
  by_cases hnum : c.ch.any isNumeric = true
  · obtain ⟨x, hx, hxnum⟩ := (Option.any_eq_true _ _).mp hnum
    obtain ⟨run, hmove, -, -, hstop⟩ := advances_number h
    rw [if_pos hnum]
    refine ⟨hmove.keeps, fun v _ => hmove.pos_lt ?_⟩
    -- The first character is numeric, and the one behind the run is not.
    rintro rfl
    rw [hmove.eq_of_nil h, hx] at hstop
    exact absurd (hstop x rfl) (by simp [hxnum])
  · rw [if_neg hnum]
    exact ⟨.refl h, fun v hv => absurd hv (by simp)⟩

/-- Closing goes on in the text. -/
lemma keeps_close (o : Opening) (h : out.2.WellFormed text) :
    Keeps text out.2 (close text o out).2 := by
  obtain ⟨res, c⟩ := out
  cases o with
  | sign s => exact .refl h
  | paren =>
    cases res with
    | ok v => exact keeps_eat ')' h
    | error err => exact .refl h

namespace Spec

/-- An operand that is too deep stays where it is. -/
lemma tooDeep (hc : c.WellFormed text) {err : CalcError} :
    Spec text (.level .operand) c (.error err, c) :=
  ⟨.refl hc, fun v hv => absurd hv (by simp), fun _ v hv => absurd hv (by simp)⟩

/-- An operand is entered and left. -/
lemma operand (h : Spec text .factor c.enter out) :
    Spec text (.level .operand) c (out.1, out.2.leave) where
  keeps := h.keeps.leave
  gains := h.gains
  stops _ _ _ _ _ := List.not_mem_nil

/-- An operand with an opening has moved on behind the opening. -/
lemma opened {o : Opening} (hc : c.WellFormed text)
    (ho : eatFirst text (fun o => o.token.first) Opening.all c = (some o, d))
    (h : Spec text (.level o.rank) d out) : Spec text .factor c (close text o out) where
  keeps := ((keeps_eatFirst hc ho).trans h.keeps).trans (keeps_close o h.keeps.wellFormed)
  gains _ _ := (pos_lt_of_eatFirst_some hc ho).trans_le
    (h.keeps.trans (keeps_close o h.keeps.wellFormed)).pos_le
  stops _ _ _ _ _ := List.not_mem_nil

/-- An operand without an opening is a number. -/
lemma single (hc : c.WellFormed text)
    (hnone : eatFirst text (fun o => o.token.first) Opening.all c = (none, d)) :
    Spec text .factor c (literal text d) where
  keeps := (keeps_eatFirst hc hnone).trans
    (spec_literal (keeps_eatFirst hc hnone).wellFormed).1
  gains v hv := (keeps_eatFirst hc hnone).pos_le.trans_lt
    ((spec_literal (keeps_eatFirst hc hnone).wellFormed).2 v hv)
  stops _ _ _ _ _ := List.not_mem_nil

/-- A chain goes on where its first part has ended. -/
lemma chain (h : Spec text (.level r.part) c part) (hmore : Runs text (.goOn r part.1) part.2 out)
    (h' : Spec text (.goOn r part.1) part.2 out) : Spec text (.level r) c out where
  keeps := h.keeps.trans h'.keeps
  gains v hv := by
    obtain ⟨w, hw⟩ := hmore.exists_ok hv
    exact (h.gains w hw).trans h'.keeps.pos_le
  stops _ v hv := by
    obtain ⟨w, hw⟩ := hmore.exists_ok hv
    exact h'.stops (h.stops (by simp [Call.before]) w hw) v hv

/-- A chain that is refused stays where it is. -/
lemma failed (hc : c.WellFormed text) {err : CalcError} :
    Spec text (.goOn r (.error err)) c (.error err, c) :=
  ⟨.refl hc, fun v hv => absurd hv (by simp), fun _ v hv => absurd hv (by simp)⟩

/-- A chain stops where none of its operators follows.

**Proof sketch.** Where no operator is found only spaces are passed, and neither a space nor an
operator of the rank follows (`advances_of_eatFirst_none`). As for what stops the parts: no space
follows a part, so that none has been passed, and the cursor is still where the last part ended. -/
lemma stop (hc : c.WellFormed text) {x : Float}
    (hnone : eatFirst text (fun op => op.token.first) r.operators c = (none, d)) :
    Spec text (.goOn r (.ok x)) c (.ok x, d) where
  keeps := keeps_eatFirst hc hnone
  gains _ _ := (keeps_eatFirst hc hnone).pos_le
  stops hpart _ _ s hs hstops := by
    obtain ⟨⟨n, hmove⟩, hother, hvisible⟩ := advances_of_eatFirst_none hc hnone
    obtain ⟨hne, rfl | ⟨op, hop, rfl⟩ | hs'⟩ := Rank.mem_stops hstops
    · exact hvisible hne hs
    · exact hother op hop hs
    · -- The parts are not followed by a space, so that none has been passed here.
      cases n with
      | zero =>
        obtain rfl := hmove.eq_of_nil hc
        exact hpart s hs hs'
      | succ n =>
        have hspace : ' ' ∈ c.ch := by
          rw [hc.ch_eq_head?, hmove.rest_eq]
          rfl
        exact hpart ' ' hspace (Rank.space_mem_stops hs')

/-- A chain goes on where its next part has ended.

**Proof sketch.** The operator and the part behind it move the cursor on. If the chain comes to a
value, the part had one, so that the part is not followed by what stops it, and the rest of the
chain goes on from there. -/
lemma link {x : Float} {op : Operator} (hc : c.WellFormed text)
    (hop : eatFirst text (fun op => op.token.first) r.operators c = (some op, d))
    (h : Spec text (.level r.part) d part)
    (hmore : Runs text (.goOn r (part.1.map (op.apply x))) part.2 out)
    (h' : Spec text (.goOn r (part.1.map (op.apply x))) part.2 out) :
    Spec text (.goOn r (.ok x)) c out where
  keeps := ((keeps_eatFirst hc hop).trans h.keeps).trans h'.keeps
  gains _ _ := (((keeps_eatFirst hc hop).trans h.keeps).trans h'.keeps).pos_le
  stops _ v hv := by
    obtain ⟨w, hw⟩ : ∃ w, part.1 = .ok w := by
      obtain ⟨w, hw⟩ := hmore.exists_ok hv
      cases hpart : part.1 with
      | ok w => exact ⟨w, rfl⟩
      | error err => exact absurd (hpart ▸ hw) (by simp [Except.map])
    exact h'.stops (h.stops (by simp [Call.before]) w hw) v hv

end Spec

/-- **Every call does as it is specified**, wherever it is made.

**Proof sketch.** Induction on the calls made inside; the cases are the lemmas above, one for each
way in which a call can end. A call inside is made where the cursor is well formed, because what was
done before has kept it so. -/
theorem Runs.spec {call : Call} (h : Runs text call c out) (hc : c.WellFormed text) :
    Spec text call c out := by
  induction h with
  | tooDeep => exact .tooDeep hc
  | operand room _ ih => exact .operand (ih (hc.enter room))
  | chain _ _ more ihfirst ihmore =>
    have hfirst := ihfirst hc
    exact .chain hfirst more (ihmore hfirst.keeps.wellFormed)
  | opened opening _ ih => exact .opened hc opening (ih (keeps_eatFirst hc opening).wellFormed)
  | single nothing => exact .single hc nothing
  | failed => exact .failed hc
  | stop nothing => exact .stop hc nothing
  | link operator _ more ihnext ihmore =>
    have hnext := ihnext (keeps_eatFirst hc operator).wellFormed
    exact .link hc operator hnext more (ihmore hnext.keeps.wellFormed)

/-! ## Every call ends -/

/-- A call ends in one way at most.

**Proof sketch.** Induction on the calls made inside. Which way a call goes is decided by the count
and by what is looked for at the cursor, and the results of the calls inside are the only ones. -/
theorem Runs.unique {call : Call} {out' : Outcome} (h : Runs text call c out)
    (h' : Runs text call c out') : out = out' := by
  induction h generalizing out' with
  | tooDeep full =>
    cases h' with
    | tooDeep => rfl
    | operand room => exact absurd full (Nat.not_le.mpr room)
    | chain rank => exact absurd rfl rank
  | operand room _ ih =>
    cases h' with
    | tooDeep full => exact absurd full (Nat.not_le.mpr room)
    | operand _ inside => rw [ih inside]
    | chain rank => exact absurd rfl rank
  | chain rank _ _ ihfirst ihmore =>
    cases h' with
    | tooDeep => exact absurd rfl rank
    | operand => exact absurd rfl rank
    | chain _ first more =>
      obtain rfl := ihfirst first
      exact ihmore more
  | opened opening _ ih =>
    cases h' with
    | opened opening' part =>
      cases opening.symm.trans opening'
      rw [ih part]
    | single nothing => exact absurd (opening.symm.trans nothing) nofun
  | single nothing =>
    cases h' with
    | opened opening => exact absurd (nothing.symm.trans opening) nofun
    | single nothing' =>
      cases nothing.symm.trans nothing'
      rfl
  | failed =>
    cases h'
    rfl
  | stop nothing =>
    cases h' with
    | stop nothing' =>
      cases nothing.symm.trans nothing'
      rfl
    | link operator => exact absurd (nothing.symm.trans operator) nofun
  | link operator _ _ ihnext ihmore =>
    cases h' with
    | stop nothing => exact absurd (operator.symm.trans nothing) nofun
    | link operator' next more =>
      cases operator.symm.trans operator'
      obtain rfl := ihnext next
      exact ihmore more

/-- A chain comes to an end if its parts do where less than `k` characters are left.

**Proof sketch.** Induction on the number of characters left, which every operator makes smaller. -/
lemma exists_runs_goOn {k : ℕ} (ih : ∀ d : Cursor, d.WellFormed text → text.length - d.pos < k →
      ∃ out, Runs text (.level r.part) d out) (x : Except CalcError Float)
    (hc : c.WellFormed text) (hk : text.length - c.pos ≤ k) :
    ∃ out, Runs text (.goOn r x) c out := by
  induction hm : text.length - c.pos using Nat.strong_induction_on generalizing c x with
  | _ m ihlinks =>
    cases x with
    | error err => exact ⟨_, .failed⟩
    | ok x =>
      rcases hfirst : eatFirst text (fun op => op.token.first) r.operators c with ⟨_ | op, d⟩
      · exact ⟨_, .stop hfirst⟩
      · have hd := keeps_eatFirst hc hfirst
        have hlt := pos_lt_of_eatFirst_some hc hfirst
        have hle := hd.wellFormed.pos_le
        obtain ⟨part, hpart⟩ := ih d hd.wellFormed (by omega)
        have hkeeps := (hpart.spec hd.wellFormed).keeps
        have hpos := hkeeps.pos_le
        obtain ⟨out, hmore⟩ := ihlinks (text.length - part.2.pos) (by omega)
          (part.1.map (op.apply x)) hkeeps.wellFormed (by omega) rfl
        exact ⟨out, .link hfirst hpart hmore⟩

/-- Expressions of all ranks can be read, and so can the inside of an operand.

**Proof sketch.** Induction on the number of characters left. An opening is one of them at least, so
that the part after it has less. A product and a sum begin with as many, but go on behind a part. -/
lemma exists_runs_level (hc : c.WellFormed text) :
    (∃ out, Runs text .factor c out) ∧ ∀ r, ∃ out, Runs text (.level r) c out := by
  induction hk : text.length - c.pos using Nat.strong_induction_on generalizing c with
  | _ k ih =>
    have ihlevel : ∀ r, ∀ d : Cursor, d.WellFormed text → text.length - d.pos < k →
        ∃ out, Runs text (.level r) d out := fun r d hd hlt => (ih _ hlt hd rfl).2 r
    have hfactor : ∀ d : Cursor, d.WellFormed text → text.length - d.pos = k →
        ∃ out, Runs text .factor d out := by
      intro d hd hdk
      rcases hfirst : eatFirst text (fun o => o.token.first) Opening.all d with ⟨_ | o, d'⟩
      · exact ⟨_, .single hfirst⟩
      · have hd' := (keeps_eatFirst hd hfirst).wellFormed
        have hlt := pos_lt_of_eatFirst_some hd hfirst
        have hle := hd'.pos_le
        obtain ⟨out, hpart⟩ := ihlevel o.rank d' hd' (by omega)
        exact ⟨_, .opened hfirst hpart⟩
    have hoperand : ∃ out, Runs text (.level .operand) c out := by
      rcases Nat.lt_or_ge c.depth nestingLimit with hroom | hfull
      · obtain ⟨out, hinside⟩ := hfactor c.enter (hc.enter hroom) hk
        exact ⟨_, .operand hroom hinside⟩
      · exact ⟨_, .tooDeep hfull⟩
    have hchain : ∀ r : Rank, r ≠ .operand → (∃ out, Runs text (.level r.part) c out) →
        ∃ out, Runs text (.level r) c out := by
      rintro r hr ⟨part, hpart⟩
      have hkeeps := (hpart.spec hc).keeps
      have hle := hkeeps.pos_le
      obtain ⟨out, hmore⟩ := exists_runs_goOn (ihlevel r.part) part.1 hkeeps.wellFormed (by omega)
      exact ⟨out, .chain hr hpart hmore⟩
    have hproduct := hchain .product nofun hoperand
    refine ⟨hfactor c hc hk, fun r => ?_⟩
    cases r with
    | operand => exact hoperand
    | product => exact hproduct
    | sum => exact hchain .sum nofun hproduct

/-- **Every call ends**, wherever it is made, and in one way.

**Proof sketch.** A call that reads an expression or the inside of an operand ends
(`exists_runs_level`), a chain that goes on ends because its parts do (`exists_runs_goOn`), and none
of them ends in two ways (`Runs.unique`). -/
theorem existsUnique_runs (call : Call) (hc : c.WellFormed text) :
    ∃! out, Runs text call c out := by
  obtain ⟨out, hout⟩ : ∃ out, Runs text call c out := by
    cases call with
    | level r => exact (exists_runs_level hc).2 r
    | factor => exact (exists_runs_level hc).1
    | goOn r x =>
      exact exists_runs_goOn (fun d hd _ => (exists_runs_level hd).2 r.part) x hc le_rfl
  exact ⟨out, hout, fun out' hout' => hout'.unique hout⟩

end Cursor

end PocketCalculator
