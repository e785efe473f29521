import Mathlib.Data.List.Basic
import Mathlib.Tactic.Common
import PocketCalculator.Proofs.Decimal.Run
import PocketCalculator.Proofs.Pad.Keys

/-!
# Tapes

What typing leaves on the screen is a tape: finished numbers with a joint after each of them, and
the number that is being typed. Taking characters off can leave a joint that has lost one of its
spaces or its operator too. The facts that the pad remembers can all be read off the number that is
being typed, and every key other than `=` and `%` leads from a tape to a tape.

## Main definitions

* `IsTyped`, `IsEntry` — the texts of a finished number and of one that is being typed.
* `Joint` — what stands between two numbers.
* `Tape`, `Tape.text` — a line of numbers and joints, and how the screen shows it.
* `Tape.pad` — the state of the pad over a tape.

## Main results

* `Tape.exists_press` — a typing key leads from a tape to a tape.
* `Tape.exists_pressAll` — so do any number of them.
-/

namespace PocketCalculator

/-! ## Numbers -/

/-- A number as it can be typed: digits, or digits on both sides of a point. -/
inductive IsTyped : List Char → Prop
  | whole {ds : List Char} (hne : ds ≠ []) (hd : ∀ c ∈ ds, c.isDigit = true) : IsTyped ds
  | point {ds fs : List Char} (hne : ds ≠ []) (hd : ∀ c ∈ ds, c.isDigit = true) (hne' : fs ≠ [])
      (hf : ∀ c ∈ fs, c.isDigit = true) : IsTyped (ds ++ '.' :: fs)

/-- A number that is being typed: there may be nothing of it yet, or nothing after its point. -/
inductive IsEntry : List Char → Prop
  | blank : IsEntry []
  | whole {ds : List Char} (hne : ds ≠ []) (hd : ∀ c ∈ ds, c.isDigit = true) : IsEntry ds
  | point {ds fs : List Char} (hne : ds ≠ []) (hd : ∀ c ∈ ds, c.isDigit = true)
      (hf : ∀ c ∈ fs, c.isDigit = true) : IsEntry (ds ++ '.' :: fs)

open Pad (endsWithDigit currentNumber)

/-- A finished number could be typed on. -/
lemma IsTyped.isEntry {n : List Char} (h : IsTyped n) : IsEntry n := by
  cases h with
  | whole hne hd => exact .whole hne hd
  | point hne hd _ hf => exact .point hne hd hf

/-- A finished number ends with a digit. -/
lemma IsTyped.endsWithDigit {n : List Char} (h : IsTyped n) : endsWithDigit n = true := by
  cases h with
  | whole hne hd => exact Pad.endsWithDigit_of_digits hne hd
  | @point ds fs _ _ hne' hf =>
    rw [← List.singleton_append, ← List.append_assoc, Pad.endsWithDigit_append hne']
    exact Pad.endsWithDigit_of_digits hne' hf

/-- A number that is being typed is finished once it ends with a digit.

**Proof sketch.** What is not finished is empty or ends with its point, and neither ends with a
digit. -/
lemma IsEntry.isTyped {n : List Char} (h : IsEntry n) (hn : endsWithDigit n = true) :
    IsTyped n := by
  cases h with
  | blank => exact absurd hn (by decide)
  | whole hne hd => exact .whole hne hd
  | @point ds fs hne hd hf =>
    refine .point hne hd ?_ hf
    rintro rfl
    rw [Pad.endsWithDigit_append (List.cons_ne_nil _ _)] at hn
    exact absurd hn (by decide)

/-- Digits go on with any number.

**Proof sketch.** Digits begin a number, make a whole number longer, or go on with the digits after
the point. -/
lemma IsEntry.append_digits {n ds : List Char} (h : IsEntry n) (hne : ds ≠ [])
    (hd : ∀ c ∈ ds, c.isDigit = true) : IsEntry (n ++ ds) := by
  cases h with
  | blank => exact .whole hne hd
  | whole hne' hd' =>
    exact .whole (List.append_ne_nil_of_right_ne_nil _ hne) (List.forall_mem_append.mpr ⟨hd', hd⟩)
  | @point whole fs hne' hd' hf =>
    rw [List.append_assoc, List.cons_append]
    exact .point hne' hd' (List.forall_mem_append.mpr ⟨hf, hd⟩)

/-- A point goes on with a finished number that has none. -/
lemma IsTyped.append_point {n : List Char} (h : IsTyped n) (hp : n.contains '.' = false) :
    IsEntry (n ++ ['.']) := by
  cases h with
  | whole hne hd => exact .point hne hd (by simp)
  | point _ _ _ _ => simp at hp

/-- What is left of a number when its last character goes is a number that can be typed on.

**Proof sketch.** Digits stay digits until there are none. A number with a point loses a digit after
it, or the point if there is none, and is then whole. -/
lemma IsEntry.dropLast {n : List Char} (h : IsEntry n) : IsEntry n.dropLast := by
  have hdigits : ∀ {ds : List Char}, (∀ c ∈ ds, c.isDigit = true) → IsEntry ds.dropLast := by
    intro ds hd
    by_cases hnil : ds.dropLast = []
    · rw [hnil]
      exact .blank
    · exact .whole hnil fun c hc => hd c (List.dropLast_subset ds hc)
  cases h with
  | blank => exact .blank
  | whole _ hd => exact hdigits hd
  | @point ds fs hne hd hf =>
    rw [List.dropLast_append_of_ne_nil (List.cons_ne_nil _ _)]
    cases fs with
    | nil =>
      rw [List.dropLast_singleton, List.append_nil]
      exact .whole hne hd
    | cons c fs =>
      rw [List.dropLast_cons_of_ne_nil (List.cons_ne_nil _ _)]
      exact .point hne hd fun x hx => hf x (List.dropLast_subset (c :: fs) hx)

/-- A number has only digits and points.

**Proof sketch.** The characters of a number are its digits and its point. -/
lemma IsEntry.numeric {n : List Char} (h : IsEntry n) : ∀ c ∈ n, Token.isNumeric c = true := by
  intro c hc
  cases h with
  | blank => simp at hc
  | whole _ hd => exact isNumeric_of_isDigit (hd c hc)
  | point _ hd hf =>
    rcases List.mem_append.mp hc with hc | hc
    · exact isNumeric_of_isDigit (hd c hc)
    · rcases List.mem_cons.mp hc with rfl | hc
      · rfl
      · exact isNumeric_of_isDigit (hf c hc)

/-- A number has no space in it. -/
lemma IsEntry.no_space {n : List Char} (h : IsEntry n) : ' ' ∉ n :=
  fun hmem => absurd (h.numeric ' ' hmem) (by decide)

/-- A number begins with a digit.

**Proof sketch.** Digits come first in both shapes, and there is one at least before a point. -/
lemma IsEntry.isDigit_head {c : Char} {more : List Char} (h : IsEntry (c :: more)) :
    c.isDigit = true := by
  generalize hn : c :: more = n at h
  cases h with
  | blank => exact absurd hn (List.cons_ne_nil _ _)
  | whole _ hd => exact hd c (hn ▸ List.mem_cons_self)
  | @point ds fs hne hd _ =>
    obtain ⟨d, ds, rfl⟩ := List.exists_cons_of_ne_nil hne
    rw [List.cons_append, List.cons.injEq] at hn
    exact hn.1 ▸ hd d List.mem_cons_self

/-- A finished number begins and ends with digits.

**Proof sketch.** At the beginning as in any number that is being typed, and at the end because the
last digits are not missing. -/
lemma IsTyped.exists_head {n : List Char} (h : IsTyped n) :
    ∃ (y : Char) (more : List Char), y.isDigit = true ∧ n = y :: more := by
  cases n with
  | nil => exact absurd h.endsWithDigit (by decide)
  | cons y more => exact ⟨y, more, h.isEntry.isDigit_head, rfl⟩

@[inherit_doc IsTyped.exists_head]
lemma IsTyped.exists_last {n : List Char} (h : IsTyped n) :
    ∃ (front : List Char) (x : Char), x.isDigit = true ∧ n = front ++ [x] := by
  rcases List.eq_nil_or_concat' n with rfl | ⟨front, x, rfl⟩
  · exact absurd h.endsWithDigit (by decide)
  · refine ⟨front, x, ?_, rfl⟩
    have hends := h.endsWithDigit
    rwa [Pad.endsWithDigit_append (List.cons_ne_nil _ _)] at hends

/-- A finished number is a number of expressions. -/
lemma IsTyped.isNumber {n : List Char} (h : IsTyped n) : IsNumber n := by
  cases h with
  | whole hne hd => exact isNumber_digits hne hd
  | point hne hd _ hf =>
    exact isNumber_point (List.append_ne_nil_of_left_ne_nil hne _) hd hf

/-- A finished number has no spaces to lose. -/
lemma IsTyped.filter {n : List Char} (h : IsTyped n) : n.filter (· != ' ') = n := by
  refine List.filter_eq_self.mpr fun c hc => ?_
  rw [bne_iff_ne]
  rintro rfl
  exact h.isEntry.no_space hc

/-! ## Tapes -/

/-- What can stand after a finished number. -/
inductive Joint
  /-- The space before an operator that has been taken off. -/
  | gap
  /-- An operator without the space after it. -/
  | half (op : Operator)
  /-- An operator as it is typed. -/
  | full (op : Operator)
deriving DecidableEq, Repr

/-- How the screen shows a joint. -/
def Joint.text : Joint → List Char
  | gap => [' ']
  | half op => [' ', op.glyph]
  | full op => [' ', op.glyph, ' ']

/-- Every joint begins with a space. -/
lemma Joint.text_ne_nil (j : Joint) : j.text ≠ [] := by
  cases j <;> exact List.cons_ne_nil _ _

/-- Finished numbers with a joint after each of them, and the number that is being typed. -/
structure Tape where
  /-- The finished numbers and their joints, in reading order. -/
  done : List (List Char × Joint) := []
  /-- The number that is being typed. -/
  current : List Char := []
  /-- The finished numbers are numbers. -/
  typed : ∀ x ∈ done, IsTyped x.1 := by simp
  /-- The last number is one that can be typed on. -/
  entry : IsEntry current := by exact .blank

namespace Tape

/-- How the screen shows finished numbers and their joints. -/
def doneText (done : List (List Char × Joint)) : List Char :=
  done.flatMap fun x => x.1 ++ x.2.text

/-- How the screen shows a tape. -/
def text (t : Tape) : List Char :=
  doneText t.done ++ t.current

/-- The state of the pad over a tape. -/
def pad (t : Tape) : Pad where
  screen := t.text
  numeric := endsWithDigit t.current
  failed := false
  pointed := t.current.contains '.'

/-- The last joint is shown last. -/
lemma doneText_concat (done : List (List Char × Joint)) (n : List Char) (j : Joint) :
    doneText (done ++ [(n, j)]) = doneText done ++ (n ++ j.text) := by
  simp [doneText]

/-- The sign of an operator is no digit, no point and no space. -/
lemma glyph_not_numeric (op : Operator) :
    op.glyph.isDigit = false ∧ op.glyph ≠ '.' ∧ op.glyph ≠ ' ' := by
  cases op <;> decide

/-- No joint ends with a digit. -/
lemma endsWithDigit_joint (j : Joint) : endsWithDigit j.text = false := by
  cases j with
  | gap => rfl
  | half op => exact (glyph_not_numeric op).1
  | full op => rfl

/-- Whether the screen ends with a digit is read off the last number.

**Proof sketch.** If nothing of the last number is there yet, the line is empty or ends with a
joint, and no joint ends with a digit. -/
lemma endsWithDigit_text (t : Tape) : endsWithDigit t.text = endsWithDigit t.current := by
  by_cases hcur : t.current = []
  · rw [text, hcur, List.append_nil]
    rcases List.eq_nil_or_concat' t.done with hdone | ⟨older, ⟨n, j⟩, hdone⟩
    · rw [hdone]
      rfl
    · rw [hdone, doneText_concat, ← List.append_assoc, Pad.endsWithDigit_append j.text_ne_nil,
        endsWithDigit_joint]
      rfl
  · exact Pad.endsWithDigit_append hcur

/-- Whether what follows the last space has a point is read off the last number: the sign of an
operator may stand before the number, but that is no point.

**Proof sketch.** The last number has no space in it, so the last space is that of the joint before
it. Of a joint that has lost its second space the sign of the operator is left behind its first one,
and this is no point. -/
lemma currentNumber_text (t : Tape) :
    (currentNumber t.text).contains '.' = t.current.contains '.' := by
  have hspace := t.entry.no_space
  rcases List.eq_nil_or_concat' t.done with hdone | ⟨older, ⟨n, j⟩, hdone⟩
  · rw [text, hdone, doneText, List.flatMap_nil, List.nil_append,
      Pad.currentNumber_eq_self hspace]
  · rw [text, hdone, doneText_concat, List.append_assoc, List.append_assoc, ← List.append_assoc]
    cases j with
    | gap => exact congrArg _ (Pad.currentNumber_append_space _ hspace)
    | half op =>
      have hglyph := glyph_not_numeric op
      have hno : ' ' ∉ op.glyph :: t.current :=
        List.not_mem_cons_of_ne_of_not_mem hglyph.2.2.symm hspace
      have hcurrent := Pad.currentNumber_append_space (doneText older ++ n) hno
      rw [show (Joint.half op).text ++ t.current = ' ' :: op.glyph :: t.current from rfl, hcurrent]
      simp [hglyph.2.1.symm]
    | full op =>
      have hcurrent :=
        Pad.currentNumber_append_space (doneText older ++ n ++ [' ', op.glyph]) hspace
      rw [List.append_assoc] at hcurrent
      exact congrArg _ hcurrent

/-- A pad is the one over a tape if it shows the tape and its facts are those of the last number. -/
lemma eq_pad {p : Pad} (t : Tape) (hscreen : p.screen = t.text)
    (hnumeric : p.numeric = endsWithDigit t.current) (hfailed : p.failed = false)
    (hpointed : p.pointed = t.current.contains '.') : p = t.pad := by
  obtain ⟨screen, numeric, failed, pointed⟩ := p
  simp only at hscreen hnumeric hfailed hpointed
  subst hscreen hnumeric hfailed hpointed
  rfl

/-! ## Keys -/

/-- The pad over a tape can use its last number if that is finished. -/
lemma ready_pad (t : Tape) : t.pad.ready = endsWithDigit t.current := by
  rw [Pad.ready, pad, Bool.not_false, Bool.and_true]

/-- Digits go on with the last number.

**Proof sketch.** The digits are added to the last number, which then ends with a digit and has the
points it had. -/
lemma exists_typeDigits (t : Tape) {ds : List Char} (hne : ds ≠ [])
    (hd : ∀ c ∈ ds, c.isDigit = true) : ∃ t' : Tape, t.pad.typeDigits ds = t'.pad := by
  have hends : endsWithDigit (t.current ++ ds) = true := by
    rw [Pad.endsWithDigit_append hne, Pad.endsWithDigit_of_digits hne hd]
  have hpoint : (t.current ++ ds).contains '.' = t.current.contains '.' := by
    simp [not_mem_digits hd (show '.'.isDigit = false from rfl)]
  exact ⟨_, eq_pad { t with current := t.current ++ ds, entry := t.entry.append_digits hne hd }
    (List.append_assoc _ _ _) hends.symm rfl hpoint.symm⟩

/-- An operator finishes the last number.

**Proof sketch.** If the last number is finished it gets the whole operator as its joint, and the
number that is being typed is empty again. If it is not, there is no effect. -/
lemma exists_typeOperator (t : Tape) (op : Operator) :
    ∃ t' : Tape, t.pad.typeOperator op = t'.pad := by
  by_cases hready : endsWithDigit t.current = true
  · have htyped : ∀ x ∈ t.done ++ [(t.current, Joint.full op)], IsTyped x.1 := by
      refine List.forall_mem_append.mpr ⟨t.typed, fun x hx => ?_⟩
      rw [List.mem_singleton.mp hx]
      exact t.entry.isTyped hready
    rw [Pad.typeOperator, ready_pad, if_pos hready]
    refine ⟨_, eq_pad { done := t.done ++ [(t.current, .full op)], typed := htyped } ?_ rfl rfl rfl⟩
    rw [text, doneText_concat, List.append_nil, ← List.append_assoc]
    rfl
  · exact ⟨t, by rw [Pad.typeOperator, ready_pad, if_neg hready]⟩

/-- A point goes on with the last number if that is finished and has none.

**Proof sketch.** The last number gets the point exactly if it is finished and has none, and those
are the facts that the pad looks at. -/
lemma exists_typePoint (t : Tape) : ∃ t' : Tape, t.pad.typePoint = t'.pad := by
  have hcond : (t.pad.ready && !t.pad.pointed) = true ↔
      endsWithDigit t.current = true ∧ t.current.contains '.' = false := by
    rw [ready_pad, Bool.and_eq_true, Bool.not_eq_true']
    rfl
  by_cases hready : endsWithDigit t.current = true ∧ t.current.contains '.' = false
  · have hentry := (t.entry.isTyped hready.1).append_point hready.2
    have hends : endsWithDigit (t.current ++ ['.']) = false :=
      Pad.endsWithDigit_append (List.cons_ne_nil _ _)
    rw [Pad.typePoint, if_pos (hcond.mpr hready)]
    exact ⟨_, eq_pad { t with current := t.current ++ ['.'], entry := hentry }
      (List.append_assoc _ _ _) hends.symm rfl (by simp)⟩
  · exact ⟨t, by rw [Pad.typePoint, if_neg fun h => hready (hcond.mp h)]⟩

/-- Without its last character a tape is a tape.

**Proof sketch.** If the last number has characters, it loses one. Otherwise the last joint does;
and when nothing is left of that, the number before it is the one that is being typed. -/
lemma exists_dropLast (t : Tape) : ∃ t' : Tape, t'.text = t.text.dropLast := by
  by_cases hcur : t.current = []
  · rcases List.eq_nil_or_concat' t.done with hdone | ⟨older, ⟨n, j⟩, hdone⟩
    · refine ⟨t, ?_⟩
      rw [text, hcur, hdone]
      rfl
    · have htyped := t.typed
      rw [hdone, List.forall_mem_append] at htyped
      have hn : IsTyped n := htyped.2 (n, j) (List.mem_singleton_self _)
      rw [text, hdone, hcur, doneText_concat, List.append_nil, ← List.append_assoc]
      have hrest : ∀ j' : Joint, ∀ x ∈ older ++ [(n, j')], IsTyped x.1 := by
        refine fun j' => List.forall_mem_append.mpr ⟨htyped.1, fun x hx => ?_⟩
        rw [List.mem_singleton.mp hx]
        exact hn
      cases j with
      | gap =>
        refine ⟨{ done := older, current := n, typed := htyped.1, entry := hn.isEntry }, ?_⟩
        exact (List.dropLast_concat).symm
      | half op =>
        refine ⟨{ done := older ++ [(n, .gap)], typed := hrest .gap }, ?_⟩
        rw [text, doneText_concat, List.append_nil, ← List.append_assoc,
          List.dropLast_append_of_ne_nil (Joint.text_ne_nil _)]
        rfl
      | full op =>
        refine ⟨{ done := older ++ [(n, .half op)], typed := hrest (.half op) }, ?_⟩
        rw [text, doneText_concat, List.append_nil, ← List.append_assoc,
          List.dropLast_append_of_ne_nil (Joint.text_ne_nil _)]
        rfl
  · refine ⟨{ t with current := t.current.dropLast, entry := t.entry.dropLast }, ?_⟩
    rw [text, text, List.dropLast_append_of_ne_nil hcur]

/-- Taking the last character off leads to a tape, and to the facts of that tape.

**Proof sketch.** An empty line stays as it is. Otherwise what is left is a tape
(`exists_dropLast`), and the facts, which are read off the screen, are those of its last number
(`endsWithDigit_text`, `currentNumber_text`). -/
lemma exists_delete (t : Tape) : ∃ t' : Tape, t.pad.delete = t'.pad := by
  by_cases hempty : t.pad.screen.isEmpty = true
  · exact ⟨t, by rw [Pad.delete, if_pos hempty]⟩
  · obtain ⟨t', ht'⟩ := t.exists_dropLast
    rw [Pad.delete, if_neg hempty]
    refine ⟨t', eq_pad t' ht'.symm ?_ rfl ?_⟩
    · rw [← endsWithDigit_text, ht']
      rfl
    · rw [← currentNumber_text, ht']
      rfl

/-- A typing key leads from a tape to a tape.

**Proof sketch.** One lemma for each kind of key: digits, the point, an operator and `DEL`. The key
`C` leads to the empty tape. -/
theorem exists_press (t : Tape) {k : Key} (hk : k.isTyping = true) :
    ∃ t' : Tape, t.pad.press k = t'.pad := by
  have hdigits : ∀ {ds : List Char}, k.digits? = some ds → ∃ t' : Tape, t.pad.press k = t'.pad := by
    intro ds h
    obtain ⟨hne, hd⟩ := Key.digits?_spec h
    rw [Pad.press_of_digits? h]
    exact t.exists_typeDigits hne hd
  cases k with
  | digit d => exact hdigits rfl
  | doubleZero => exact hdigits rfl
  | point => exact t.exists_typePoint
  | operator op => exact t.exists_typeOperator op
  | delete => exact t.exists_delete
  | clear => exact ⟨{}, rfl⟩
  | equals => simp [Key.isTyping] at hk
  | percent => simp [Key.isTyping] at hk

/-- **Typing makes tapes**: whatever typing keys are pressed on the cleared pad, and in whatever
order, the pad is over a tape.

**Proof sketch.** Induction on the keys, from any tape on: each of them leads to a tape
(`exists_press`). The cleared pad is over the empty tape. -/
theorem exists_pressAll {keys : List Key} (hkeys : ∀ k ∈ keys, k.isTyping = true) :
    ∃ t : Tape, Pad.cleared.pressAll keys = t.pad := by
  have hrun : ∀ t : Tape, ∃ t' : Tape, t.pad.pressAll keys = t'.pad := by
    induction keys with
    | nil => exact fun t => ⟨t, rfl⟩
    | cons k keys ih =>
      rw [List.forall_mem_cons] at hkeys
      intro t
      obtain ⟨t', ht'⟩ := t.exists_press hkeys.1
      rw [Pad.pressAll_cons, ht']
      exact ih hkeys.2 t'
  exact hrun {}

end Tape

end PocketCalculator
