import Mathlib.Data.List.Basic
import Mathlib.Data.Nat.Basic
import Mathlib.Tactic.Common
import PocketCalculator.Expression.Parser

/-!
# Cursors

A text can be evaluated without taking it apart into tokens or keeping its expression: a cursor
moves over its characters, looks one character ahead and counts the open operands, and the value is
worked out on the way. Here are the steps that such a reading is made of. Spaces are passed over
wherever a symbol is looked for, and symbols are looked for one after the other.

## Main definitions

* `Cursor` — a place in a text.
* `Cursor.eat`, `Cursor.eatFirst`, `Cursor.number` — the steps over symbols and numbers.
* `Cursor.WellFormed` — the cursor is in the text and looks at the character there.
* `Cursor.Keeps` — the cursor is still well formed, no further back, and has its old count.
* `Cursor.Advances` — the cursor has moved over some characters.

## Main results

* `Cursor.advances_skipWhile` — where a loop over characters ends.
* `Cursor.advances_eat` — a symbol is found behind spaces, or only spaces are passed.
* `Cursor.advances_of_eatFirst_some`, `Cursor.advances_of_eatFirst_none` — the same of several
  symbols.
* `Cursor.advances_number` — a number is as long as it can be.
-/

namespace PocketCalculator

open Token (isNumeric)

/-- A place in a text. -/
@[ext]
structure Cursor where
  /-- How many characters are before it. -/
  pos : ℕ
  /-- The character after it, if there is any. -/
  ch : Option Char
  /-- How many operands are open. -/
  depth : ℕ
deriving DecidableEq, Repr

namespace Cursor

/-! ## Steps -/

section Steps

variable (text : List Char)

/-- The place in front of a text. -/
def start : Cursor :=
  ⟨0, text.head?, 0⟩

/-- The text after a cursor. -/
def rest (c : Cursor) : List Char :=
  text.drop c.pos

/-- The place behind the next character. At the end of the text there is none. -/
def next (c : Cursor) : Cursor :=
  let pos := if c.pos < text.length then c.pos + 1 else c.pos
  { c with pos := pos, ch := text[pos]? }

/-- One more operand is open. -/
def enter (c : Cursor) : Cursor :=
  { c with depth := c.depth + 1 }

/-- One operand less is open. -/
def leave (c : Cursor) : Cursor :=
  { c with depth := c.depth - 1 }

/-- Moves on as long as the next character has a property. -/
def skipWhile (p : Char → Bool) (c : Cursor) : Cursor :=
  if c.ch.any p then skipWhile p (next text c) else c
termination_by 2 * (text.length - c.pos) + (c.ch.any p).toNat
decreasing_by
  -- A cursor that is at the end already looks at nothing afterwards.
  have hany : c.ch.any p = true := ‹_›
  have hone := ((next text c).ch.any p).toNat_le
  rw [hany, Bool.toNat_true]
  by_cases hlt : c.pos < text.length
  · have hpos : (next text c).pos = c.pos + 1 := if_pos hlt
    omega
  · have hnext : next text c = { c with ch := none } := by
      simp only [next, if_neg hlt, List.getElem?_eq_none (Nat.not_lt.mp hlt)]
    rw [hnext]
    exact Nat.lt_succ_self _

/-- Looks for a symbol behind any number of spaces, and moves behind it if it is there. -/
def eat (wanted : Char) (c : Cursor) : Bool × Cursor :=
  let c := skipWhile text (· == ' ') c
  if c.ch = some wanted then (true, next text c) else (false, c)

/-- Looks for symbols one after the other. -/
def eatFirst {α : Type} (symbol : α → Char) : List α → Cursor → Option α × Cursor
  | [], c => (none, c)
  | a :: more, c =>
    match eat text (symbol a) c with
    | (true, c) => (some a, c)
    | (false, c) => eatFirst symbol more c

/-- What reading with a cursor ends with: a value or the cause of a refusal, and the place where
that happens. -/
abbrev Outcome := Except CalcError Float × Cursor

/-- Reads the number that the digits and points from here on spell. -/
def number (c : Cursor) : Outcome :=
  let behind := skipWhile text isNumeric c
  let run := (c.rest text).take (behind.pos - c.pos)
  ((Numeral.read run).mapError (.badNumber run), behind)

end Steps

/-! ## Places and moves -/

/-- The cursor is in the text and looks at the character there, and no more operands are open than
there may be. -/
structure WellFormed (text : List Char) (c : Cursor) : Prop where
  pos_le : c.pos ≤ text.length
  ch_eq : c.ch = text[c.pos]?
  depth_le : c.depth ≤ nestingLimit

/-- The cursor is still well formed, it has not gone back, and as many operands are open. -/
structure Keeps (text : List Char) (c c' : Cursor) : Prop where
  wellFormed : c'.WellFormed text
  pos_le : c.pos ≤ c'.pos
  depth_eq : c'.depth = c.depth

/-- `Advances text c run c'` says that `c'` is the place behind the characters `run` after `c`. -/
structure Advances (text : List Char) (c : Cursor) (run : List Char) (c' : Cursor) : Prop where
  wellFormed : c'.WellFormed text
  pos_eq : c'.pos = c.pos + run.length
  depth_eq : c'.depth = c.depth
  rest_eq : c.rest text = run ++ c'.rest text

variable {text run run' : List Char} {c c' c'' : Cursor}

/-- The place in front of a text is well formed. -/
lemma wellFormed_start (text : List Char) : (start text).WellFormed text where
  pos_le := Nat.zero_le _
  ch_eq := List.head?_eq_getElem?
  depth_le := Nat.zero_le _

namespace WellFormed

/-- The next character is the first one of the text after the cursor. -/
lemma ch_eq_head? (h : c.WellFormed text) : c.ch = (c.rest text).head? := by
  rw [h.ch_eq, rest, List.head?_drop]

/-- Further operands may be opened up to the limit. -/
lemma enter (h : c.WellFormed text) (hroom : c.depth < nestingLimit) :
    c.enter.WellFormed text :=
  ⟨h.pos_le, h.ch_eq, hroom⟩

/-- The place behind the next character.

**Proof sketch.** The cursor looks at a character, so it is not at the end, and this character is
the first one of the text after it. -/
lemma advances_next (h : c.WellFormed text) {x : Char} (hx : c.ch = some x) :
    Advances text c [x] (next text c) := by
  obtain ⟨hlt, hget⟩ := List.getElem?_eq_some_iff.mp (h.ch_eq.symm.trans hx)
  have hnext : next text c = { c with pos := c.pos + 1, ch := text[c.pos + 1]? } := by
    simp only [next, if_pos hlt]
  rw [hnext]
  refine ⟨⟨hlt, rfl, h.depth_le⟩, rfl, rfl, ?_⟩
  rw [rest, List.drop_eq_getElem_cons hlt, hget]
  rfl

/-- A cursor may stay where it is. -/
lemma advances_nil (h : c.WellFormed text) : Advances text c [] c :=
  ⟨h, rfl, rfl, rfl⟩

end WellFormed

namespace Keeps

/-- A cursor that stays where it is keeps everything. -/
lemma refl (h : c.WellFormed text) : Keeps text c c :=
  ⟨h, le_rfl, rfl⟩

/-- What two moves keep, both together keep. -/
lemma trans (h : Keeps text c c') (h' : Keeps text c' c'') : Keeps text c c'' :=
  ⟨h'.wellFormed, Nat.le_trans h.pos_le h'.pos_le, h'.depth_eq.trans h.depth_eq⟩

/-- An operand that is left has been entered.

**Proof sketch.** The count is one more than that before the operand was entered, and leaving takes
it off again. -/
lemma leave (h : Keeps text c.enter c') : Keeps text c c'.leave := by
  have hdepth : c'.leave.depth = c.depth := by
    rw [Cursor.leave, h.depth_eq, enter, Nat.add_sub_cancel]
  refine ⟨⟨h.wellFormed.pos_le, h.wellFormed.ch_eq, ?_⟩, h.pos_le, hdepth⟩
  exact Nat.le_trans (Nat.sub_le _ _) h.wellFormed.depth_le

end Keeps

namespace Advances

/-- One move after the other. -/
lemma trans (h : Advances text c run c') (h' : Advances text c' run' c'') :
    Advances text c (run ++ run') c'' where
  wellFormed := h'.wellFormed
  pos_eq := by rw [h'.pos_eq, h.pos_eq, List.length_append, Nat.add_assoc]
  depth_eq := h'.depth_eq.trans h.depth_eq
  rest_eq := by rw [h.rest_eq, h'.rest_eq, List.append_assoc]

/-- A cursor does not go back when it moves on. -/
lemma keeps (h : Advances text c run c') : Keeps text c c' :=
  ⟨h.wellFormed, h.pos_eq ▸ Nat.le_add_right _ _, h.depth_eq⟩

/-- A cursor that has passed something is further on. -/
lemma pos_lt (h : Advances text c run c') (hne : run ≠ []) : c.pos < c'.pos := by
  have := List.length_pos_iff.mpr hne
  have := h.pos_eq
  omega

/-- Where nothing is passed the cursor is still there. -/
lemma eq_of_nil (hc : c.WellFormed text) (h : Advances text c [] c') : c' = c := by
  have hpos : c'.pos = c.pos := h.pos_eq
  have hch : c'.ch = c.ch := by rw [h.wellFormed.ch_eq, hpos, hc.ch_eq]
  exact Cursor.ext hpos hch h.depth_eq

end Advances

/-! ## What the steps do -/

/-- A loop over characters ends at the first one without the property, or at the end.

**Proof sketch.** Induction along the loop. As long as the next character has the property, it is
passed (`WellFormed.advances_next`), and what is passed later comes behind it. -/
theorem advances_skipWhile (p : Char → Bool) (h : c.WellFormed text) :
    ∃ run, Advances text c run (skipWhile text p c) ∧ (∀ x ∈ run, p x = true) ∧
      ∀ x ∈ (skipWhile text p c).ch, p x = false := by
  fun_induction skipWhile text p c with
  | case1 c hany ih =>
    obtain ⟨x, hx, hp⟩ := (Option.any_eq_true _ _).mp hany
    have hnext := h.advances_next hx
    obtain ⟨run, hrun, hall, hstop⟩ := ih hnext.wellFormed
    exact ⟨x :: run, hnext.trans hrun, List.forall_mem_cons.mpr ⟨hp, hall⟩, hstop⟩
  | case2 c hany =>
    refine ⟨[], h.advances_nil, by simp, fun x hx => ?_⟩
    rw [Option.mem_def.mp hx] at hany
    simpa using hany

/-- The spaces before a symbol. -/
lemma advances_spaces (h : c.WellFormed text) :
    ∃ n, Advances text c (List.replicate n ' ') (skipWhile text (· == ' ') c) ∧
      (skipWhile text (· == ' ') c).ch ≠ some ' ' := by
  obtain ⟨run, hrun, hall, hstop⟩ := advances_skipWhile (· == ' ') h
  have hspaces : run = List.replicate run.length ' ' :=
    List.eq_replicate_of_mem fun x hx => by simpa using hall x hx
  refine ⟨run.length, hspaces ▸ hrun, fun hspace => ?_⟩
  exact absurd (hstop ' ' hspace) (by decide)

/-- **What eating does**: either the symbol is the next character behind the spaces and is passed
with them, or another one is, or none, and only the spaces are passed.

**Proof sketch.** The spaces are passed first (`advances_spaces`). The character behind them is no
space, and it is passed exactly if it is the symbol. -/
theorem advances_eat (wanted : Char) (h : c.WellFormed text) : ∃ n,
    ((eat text wanted c).1 = true ∧
      Advances text c (List.replicate n ' ' ++ [wanted]) (eat text wanted c).2) ∨
    ((eat text wanted c).1 = false ∧
      Advances text c (List.replicate n ' ') (eat text wanted c).2 ∧
      (eat text wanted c).2.ch ≠ some ' ' ∧ (eat text wanted c).2.ch ≠ some wanted) := by
  obtain ⟨n, hspaces, hvisible⟩ := advances_spaces h
  refine ⟨n, ?_⟩
  unfold eat
  by_cases hfound : (skipWhile text (· == ' ') c).ch = some wanted
  · simp only [if_pos hfound]
    exact .inl ⟨trivial, hspaces.trans (hspaces.wellFormed.advances_next hfound)⟩
  · simp only [if_neg hfound]
    exact .inr ⟨trivial, hspaces, hvisible, hfound⟩

/-- Eating goes on in the text. -/
lemma keeps_eat (wanted : Char) (h : c.WellFormed text) : Keeps text c (eat text wanted c).2 := by
  obtain ⟨n, ⟨-, heat⟩ | ⟨-, heat, -⟩⟩ := advances_eat wanted h
  · exact heat.keeps
  · exact heat.keeps

/-- What eats nothing passes spaces only. -/
lemma rest_eq_of_eat_eq_false {wanted : Char} (h : c.WellFormed text)
    (hfail : (eat text wanted c).1 = false) :
    ∃ n, c.rest text = List.replicate n ' ' ++ (eat text wanted c).2.rest text := by
  obtain ⟨n, ⟨htrue, -⟩ | ⟨-, heat, -⟩⟩ := advances_eat wanted h
  · exact absurd (htrue.symm.trans hfail) (by decide)
  · exact ⟨n, heat.rest_eq⟩

section EatFirst

variable {α : Type} {symbol : α → Char} {as : List α}

/-- The symbol that is found first is the next one behind the spaces.

**Proof sketch.** Induction on the symbols. If the first one is there, it is passed with the spaces
before it (`advances_eat`); otherwise only spaces are passed, and those that the next attempts pass
come behind them. -/
theorem advances_of_eatFirst_some {a : α} (h : c.WellFormed text)
    (hfound : eatFirst text symbol as c = (some a, c')) :
    a ∈ as ∧ ∃ n, Advances text c (List.replicate n ' ' ++ [symbol a]) c' := by
  fun_induction eatFirst text symbol as c with
  | case1 c => exact absurd hfound (by simp)
  | case2 b more c d heat =>
    obtain ⟨rfl, rfl⟩ : b = a ∧ d = c' := by simpa using hfound
    obtain ⟨n, ⟨-, hmove⟩ | ⟨hfalse, -⟩⟩ := advances_eat (symbol b) h
    · rw [heat] at hmove
      exact ⟨List.mem_cons_self, n, hmove⟩
    · exact absurd (heat ▸ hfalse) (by simp)
  | case3 b more c d heat ih =>
    obtain ⟨n, ⟨htrue, -⟩ | ⟨-, hmove, -⟩⟩ := advances_eat (symbol b) h
    · exact absurd (heat ▸ htrue) (by simp)
    · rw [heat] at hmove
      obtain ⟨hmem, m, hrest⟩ := ih hmove.wellFormed hfound
      refine ⟨List.mem_cons_of_mem b hmem, n + m, ?_⟩
      rw [List.replicate_add, List.append_assoc]
      exact hmove.trans hrest

/-- Where no symbol is found only spaces are passed, and none of the symbols follows, nor a further
space if any symbol was looked for.

**Proof sketch.** Induction on the symbols. The first attempt passes all spaces, so that the further
ones find the cursor at the same place and leave it there. -/
theorem advances_of_eatFirst_none (h : c.WellFormed text)
    (hnone : eatFirst text symbol as c = (none, c')) :
    (∃ n, Advances text c (List.replicate n ' ') c') ∧ (∀ a ∈ as, c'.ch ≠ some (symbol a)) ∧
      (as ≠ [] → c'.ch ≠ some ' ') := by
  fun_induction eatFirst text symbol as c with
  | case1 c =>
    obtain rfl : c = c' := by simpa using hnone
    exact ⟨⟨0, h.advances_nil⟩, by simp, by simp⟩
  | case2 b more c d heat => exact absurd hnone (by simp)
  | case3 b more c d heat ih =>
    obtain ⟨n, ⟨htrue, -⟩ | ⟨-, hmove, hvisible, hother⟩⟩ := advances_eat (symbol b) h
    · exact absurd (heat ▸ htrue) (by simp)
    · rw [heat] at hmove hvisible hother
      obtain ⟨⟨m, hrest⟩, hall, hspace⟩ := ih hmove.wellFormed hnone
      -- Behind the spaces of the first attempt the further ones do not move.
      have hm : m = 0 := by
        cases m with
        | zero => rfl
        | succ m =>
          refine absurd ?_ hvisible
          rw [hmove.wellFormed.ch_eq_head?, hrest.rest_eq]
          rfl
      subst hm
      obtain rfl := hrest.eq_of_nil hmove.wellFormed
      exact ⟨⟨n, hmove⟩, List.forall_mem_cons.mpr ⟨hother, hall⟩, fun _ => hvisible⟩

/-- Looking for symbols goes on in the text. -/
lemma keeps_eatFirst {found : Option α} (h : c.WellFormed text)
    (hfirst : eatFirst text symbol as c = (found, c')) : Keeps text c c' := by
  cases found with
  | none =>
    obtain ⟨⟨n, hmove⟩, -⟩ := advances_of_eatFirst_none h hfirst
    exact hmove.keeps
  | some a =>
    obtain ⟨-, n, hmove⟩ := advances_of_eatFirst_some h hfirst
    exact hmove.keeps

/-- A symbol that is found has been passed. -/
lemma pos_lt_of_eatFirst_some {a : α} (h : c.WellFormed text)
    (hfound : eatFirst text symbol as c = (some a, c')) : c.pos < c'.pos := by
  obtain ⟨-, n, hmove⟩ := advances_of_eatFirst_some h hfound
  exact hmove.pos_lt (by simp)

end EatFirst

/-- A number is the longest run of digits and points.

**Proof sketch.** The run is what the loop over digits and points passes (`advances_skipWhile`), and
that is the text between the two places. -/
theorem advances_number (h : c.WellFormed text) : ∃ run,
    Advances text c run (number text c).2 ∧
      (number text c).1 = (Numeral.read run).mapError (.badNumber run) ∧
      (∀ x ∈ run, isNumeric x = true) ∧ ∀ x ∈ (number text c).2.ch, isNumeric x = false := by
  obtain ⟨run, hmove, hall, hstop⟩ := advances_skipWhile isNumeric h
  refine ⟨run, hmove, ?_, hall, hstop⟩
  have hrun : (c.rest text).take ((skipWhile text isNumeric c).pos - c.pos) = run := by
    rw [hmove.pos_eq, Nat.add_sub_cancel_left, hmove.rest_eq, List.take_left]
  simp only [number, hrun]

end Cursor

end PocketCalculator
