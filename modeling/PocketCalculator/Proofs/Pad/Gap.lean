import Mathlib.Data.List.Basic
import Mathlib.Data.List.Infix
import Mathlib.Tactic.Common
import PocketCalculator.Proofs.Expression.Recognition
import PocketCalculator.Proofs.Pad.Tape

/-!
# Gaps

An operator is typed with a space on both sides, and taking characters off can take the operator and
leave the space in front of it. Digits that are typed there make a gap: two numbers with one space
between them. No expression has two numbers side by side, so that a line with a gap is refused.

## Main definitions

* `HasGap` — somewhere on the line, one space and nothing else stands between two digits.
* `Pad.SplitsOperator` — an operator was taken off but for its first space, and a digit followed.

## Main results

* `evaluate_ne_ok_of_hasGap` — a line with a gap is refused.
* `Tape.hasGap_of_mem` — where the operator of a joint is missing, there is a gap.
* `Pad.splitsOperator_of_hasGap` — how a gap comes about.
-/

namespace PocketCalculator

/-! ## Digits on both sides of a space -/

/-- Two digits with one space between them. -/
def HasGap (line : List Char) : Prop :=
  ∃ x y : Char, x.isDigit = true ∧ y.isDigit = true ∧ [x, ' ', y] <:+: line

/-- The end of a line after which a digit makes a gap. -/
def EndsInGap (line : List Char) : Prop :=
  ∃ (s : List Char) (x : Char), x.isDigit = true ∧ line = s ++ [x, ' ']

/-- A gap in a longer line is one in the shorter line, or its last digit has been added.

**Proof sketch.** Compare where the gap ends with where the shorter line does. -/
lemma HasGap.of_append {s u : List Char} (h : HasGap (s ++ u)) :
    HasGap s ∨ ∃ (m : List Char) (y : Char), y.isDigit = true ∧ m ++ [y] <+: u ∧
      EndsInGap (s ++ m) := by
  obtain ⟨x, y, hx, hy, a, b, hab⟩ := h
  rcases List.append_eq_append_iff.mp hab with ⟨m, hs, -⟩ | ⟨m, hgap, hu⟩
  · exact .inl ⟨x, y, hx, hy, a, m, hs.symm⟩
  · rcases List.eq_nil_or_concat' m with rfl | ⟨m, z, rfl⟩
    · rw [List.append_nil] at hgap
      exact .inl ⟨x, y, hx, hy, a, [], by rw [List.append_nil, hgap]⟩
    · have hsplit : (a ++ [x, ' ']) ++ [y] = (s ++ m) ++ [z] := by
        rw [List.append_assoc, List.append_assoc, ← hgap]
        rfl
      obtain ⟨hfront, rfl⟩ := List.append_singleton_inj.mp hsplit
      exact .inr ⟨m, y, hy, ⟨b, hu.symm⟩, a, x, hx, hfront.symm⟩

/-- Text without digits adds no gap.

**Proof sketch.** A gap that is not in the shorter line ends with a digit of what has been added. -/
lemma HasGap.of_append_no_digit {s u : List Char} (h : HasGap (s ++ u))
    (hu : ∀ c ∈ u, c.isDigit = false) : HasGap s := by
  rcases h.of_append with h | ⟨m, y, hy, hpre, -⟩
  · exact h
  · have hmem : y ∈ u := hpre.subset (by simp)
    rw [hu y hmem] at hy
    exact absurd hy (by decide)

/-- Digits add a gap only where the line ends in one.

**Proof sketch.** The gap is in the shorter line, or its last digit has been added
(`HasGap.of_append`). Then the space before this digit is the end of the shorter line, as the added
text has no space. -/
lemma HasGap.of_append_digits {s ds : List Char} (h : HasGap (s ++ ds))
    (hd : ∀ c ∈ ds, c.isDigit = true) : HasGap s ∨ EndsInGap s := by
  rcases h.of_append with h | ⟨m, y, -, hpre, t, x, hx, hend⟩
  · exact .inl h
  · rcases List.eq_nil_or_concat' m with rfl | ⟨m, z, rfl⟩
    · rw [List.append_nil] at hend
      exact .inr ⟨t, x, hx, hend⟩
    · -- the character before the new digit is a digit and cannot be the space
      have hz : z.isDigit = true := hd z (hpre.subset (by simp))
      have hsplit : (s ++ m) ++ [z] = (t ++ [x]) ++ [' '] := by
        rw [List.append_assoc, hend, List.append_assoc]
        rfl
      obtain ⟨-, rfl⟩ := List.append_singleton_inj.mp hsplit
      exact absurd hz (by decide)

/-- An empty line has no gap and does not end in one. -/
lemma not_hasGap_nil : ¬ HasGap [] := by
  rintro ⟨x, y, -, -, h⟩
  exact absurd (List.infix_nil.mp h) (List.cons_ne_nil _ _)

@[inherit_doc not_hasGap_nil]
lemma not_endsInGap_nil : ¬ EndsInGap [] := by
  rintro ⟨s, x, -, h⟩
  exact absurd h.symm (List.append_ne_nil_of_right_ne_nil _ (List.cons_ne_nil _ _))

/-- A line that ends in a gap ends with a space. -/
lemma not_endsInGap_concat (s : List Char) {c : Char} (hc : c ≠ ' ') : ¬ EndsInGap (s ++ [c]) := by
  rintro ⟨front, x, -, h⟩
  have hlast : s ++ [c] = (front ++ [x]) ++ [' '] := by
    rw [h, List.append_assoc]
    rfl
  exact hc (List.append_singleton_inj.mp hlast).2

/-- The space after an operator begins no gap.

**Proof sketch.** The character before the last space is the sign of the operator, and this is no
digit. -/
lemma not_endsInGap_operator (s : List Char) (op : Operator) :
    ¬ EndsInGap (s ++ [' ', op.glyph, ' ']) := by
  rintro ⟨front, x, hx, h⟩
  have hlast : ((s ++ [' ']) ++ [op.glyph]) ++ [' '] = (front ++ [x]) ++ [' '] := by
    rw [List.append_assoc, List.append_assoc, List.append_assoc]
    exact h
  obtain ⟨hfront, -⟩ := List.append_singleton_inj.mp hlast
  obtain ⟨-, rfl⟩ := List.append_singleton_inj.mp hfront
  rw [(Tape.glyph_not_numeric op).1] at hx
  exact absurd hx (by decide)

/-! ## Lines with a gap -/

/-- A text is the same in an expression as on the screen, but for two of its signs. -/
lemma toAscii_eq_self {text : List Char} (h : ∀ c ∈ text, c ≠ '÷' ∧ c ≠ '×') :
    toAscii text = text := by
  rw [toAscii]
  refine (List.map_congr_left fun c hc => ?_).trans (List.map_id text)
  rw [if_neg (h c hc).1, if_neg (h c hc).2]
  rfl

/-- Digits and points are the same in an expression as on the screen. -/
lemma toAscii_of_numeric {run : List Char} (h : ∀ c ∈ run, Token.isNumeric c = true) :
    toAscii run = run := by
  refine toAscii_eq_self fun c hc => ?_
  constructor <;> rintro rfl <;> exact absurd (h _ hc) (by decide)

/-- **A line with a gap is refused**: two numbers would stand side by side.

**Proof sketch.** Up to the first digit of the gap the text ends with a number
(`Token.getLast?_scan`), and from the second on it begins with one. The space between them has no
token, so that two numbers stand side by side, and in an expression they never do
(`Derives.isChain_apart`). -/
theorem evaluate_ne_ok_of_hasGap {line : List Char} (h : HasGap line) (v : Float) :
    evaluate (toAscii line) ≠ .ok v := by
  obtain ⟨x, y, hx, hy, a, b, rfl⟩ := h
  intro hok
  have hx' := isNumeric_of_isDigit hx
  have hy' := isNumeric_of_isDigit hy
  have htext : toAscii (a ++ [x, ' ', y] ++ b) = (toAscii a ++ [x]) ++ ' ' :: y :: toAscii b := by
    have hxy : toAscii [x, ' ', y] = [x, ' ', y] := by
      have hone : toAscii [x] = [x] := toAscii_of_numeric (by simpa using hx')
      have htwo : toAscii [y] = [y] := toAscii_of_numeric (by simpa using hy')
      rw [show [x, ' ', y] = [x] ++ ([' '] ++ [y]) from rfl, toAscii_append, toAscii_append, hone,
        htwo]
      rfl
    rw [toAscii_append, toAscii_append, hxy, List.append_assoc, List.append_assoc]
    rfl
  obtain ⟨k, e, hd, -, -⟩ := derives_of_evaluate hok
  rw [htext, Token.scan_append_cons _ _ (by decide), Token.scan_space, Token.scan_numeric hy',
    List.append_assoc, List.cons_append] at hd
  have hlast : x ∈ (toAscii a ++ [x]).getLast? := by simp
  obtain ⟨c, more, hnumber⟩ := Token.getLast?_scan hlast hx'
  have hapart := (List.isChain_append.mp hd.isChain_apart).2.2 _ hnumber _ rfl rfl
  simp [Token.isNumber] at hapart

/-! ## Tapes with a gap -/

namespace Tape

/-- A tape whose last number is finished begins with a digit. -/
lemma exists_head {done : List (List Char × Joint)} {current : List Char}
    (hdone : ∀ x ∈ done, IsTyped x.1) (hcur : IsTyped current) :
    ∃ (y : Char) (more : List Char), y.isDigit = true ∧ doneText done ++ current = y :: more := by
  cases done with
  | nil => exact hcur.exists_head
  | cons x done =>
    obtain ⟨y, more, hy, hx⟩ := (hdone x List.mem_cons_self).exists_head
    refine ⟨y, more ++ (x.2.text ++ doneText done ++ current), hy, ?_⟩
    simp [doneText, hx]

/-- Where an operator has been taken off, there is a gap on the line.

**Proof sketch.** The number in front of the joint ends with a digit. What follows the joint, be it
a further number of the tape or the last one, begins with a digit (`exists_head`), and between them
is the space of the joint alone. -/
lemma hasGap_of_mem {done : List (List Char × Joint)} {current n : List Char}
    (hdone : ∀ x ∈ done, IsTyped x.1) (hcur : IsTyped current) (hmem : (n, Joint.gap) ∈ done) :
    HasGap (doneText done ++ current) := by
  obtain ⟨older, newer, rfl⟩ := List.append_of_mem hmem
  rw [List.forall_mem_append, List.forall_mem_cons] at hdone
  obtain ⟨front, x, hx, rfl⟩ := hdone.2.1.exists_last
  obtain ⟨y, more, hy, hnext⟩ := exists_head hdone.2.2 hcur
  refine ⟨x, y, hx, hy, doneText older ++ front, more, ?_⟩
  have htext : doneText (older ++ (front ++ [x], Joint.gap) :: newer) ++ current =
      doneText older ++ (front ++ [x]) ++ ' ' :: (doneText newer ++ current) := by
    simp [doneText, Joint.text]
  rw [htext, hnext]
  simp

/-- If the last character of a tape is taken off and a space is then the last one, an operator or
the first digit of a number was taken off.

**Proof sketch.** If two characters of the last number are there, the one before the last is no
space. If only one is, it is a digit and the space is that of the joint before it. If none is, the
last joint has lost a character, and a space is then its last one only if this was the sign of its
operator. -/
lemma text_of_dropLast (t : Tape) {s : List Char} (h : t.text.dropLast = s ++ [' ']) :
    (∃ op : Operator, t.text = s ++ [' ', op.glyph]) ∨
      ∃ y : Char, y.isDigit = true ∧ t.text = s ++ [' ', y] := by
  rcases List.eq_nil_or_concat' t.current with hcur | ⟨front, z, hcur⟩
  · rw [text, hcur, List.append_nil] at h ⊢
    rcases List.eq_nil_or_concat' t.done with hdone | ⟨older, ⟨n, j⟩, hdone⟩
    · rw [hdone] at h
      exact absurd h.symm (List.append_ne_nil_of_right_ne_nil _ (List.cons_ne_nil _ _))
    · rw [hdone, doneText_concat, ← List.append_assoc] at h ⊢
      rw [List.dropLast_append_of_ne_nil j.text_ne_nil] at h
      cases j with
      | gap =>
        have hn : IsTyped n := t.typed (n, .gap) (by simp [hdone])
        obtain ⟨front, x, hx, rfl⟩ := hn.exists_last
        rw [show Joint.gap.text.dropLast = [] from rfl, List.append_nil, ← List.append_assoc] at h
        rw [(List.append_singleton_inj.mp h).2] at hx
        exact absurd hx (by decide)
      | half op =>
        obtain ⟨rfl, -⟩ := List.append_singleton_inj.mp h
        exact .inl ⟨op, rfl⟩
      | full op =>
        have h' : (doneText older ++ n ++ [' ']) ++ [op.glyph] = s ++ [' '] := by
          rw [← h, List.append_assoc]
          rfl
        exact absurd (List.append_singleton_inj.mp h').2 (glyph_not_numeric op).2.2
  · rw [text, hcur, ← List.append_assoc, List.dropLast_concat] at h
    have hentry := t.entry
    rw [hcur] at hentry
    rcases List.eq_nil_or_concat' front with rfl | ⟨front, w, rfl⟩
    · rw [List.append_nil] at h
      refine .inr ⟨z, hentry.isDigit_head, ?_⟩
      rw [text, hcur, h, List.append_assoc]
      rfl
    · rw [← List.append_assoc] at h
      obtain ⟨-, rfl⟩ := List.append_singleton_inj.mp h
      exact absurd (by simp) hentry.no_space

end Tape

/-! ## How gaps come about -/

namespace Pad

/-- An operator was taken off but for its first space, and only keys without effect were pressed
after that. -/
def LeavesSpace (keys : List Key) : Prop :=
  ∃ (before between : List Key) (line : List Char) (op : Operator),
    keys = before ++ .delete :: between ∧
    (cleared.pressAll before).screen = line ++ [' ', op.glyph] ∧
    ∀ l ∈ between, l.needsNumber = true

/-- An operator was taken off but for its first space, and then a digit was typed; keys pressed
between the two had no effect. -/
def SplitsOperator (keys : List Key) : Prop :=
  ∃ (left after : List Key) (k : Key), keys = left ++ k :: after ∧ LeavesSpace left ∧
    k.digits?.isSome = true

/-- What the keys have done, they have done with one more key at the end. -/
lemma SplitsOperator.concat {keys : List Key} (h : SplitsOperator keys) (k : Key) :
    SplitsOperator (keys ++ [k]) := by
  obtain ⟨left, after, l, rfl, hleft, hl⟩ := h
  exact ⟨left, after ++ [k], l, by rw [List.append_assoc]; rfl, hleft, hl⟩

/-- A key without effect leaves the space where it is. -/
lemma LeavesSpace.concat {keys : List Key} (h : LeavesSpace keys) {k : Key}
    (hk : k.needsNumber = true) : LeavesSpace (keys ++ [k]) := by
  obtain ⟨before, between, line, op, rfl, hline, hbetween⟩ := h
  refine ⟨before, between ++ [k], line, op, by rw [List.append_assoc]; rfl, hline, ?_⟩
  refine List.forall_mem_append.mpr ⟨hbetween, fun l hl => ?_⟩
  rw [List.mem_singleton.mp hl]
  exact hk

/-- How a gap comes about, and how the end of a line after which a digit makes one.

**Proof sketch.** Induction on the keys, the last one first. The screen changes at its end only, so
that a new gap takes a digit typed at such an end; and such an end is new only after an operator has
lost its sign. -/
lemma gap_invariant {keys : List Key} (hkeys : ∀ k ∈ keys, k.isTyping = true) :
    (HasGap (cleared.pressAll keys).screen → SplitsOperator keys) ∧
    (EndsInGap (cleared.pressAll keys).screen → SplitsOperator keys ∨ LeavesSpace keys) := by
  induction keys using List.reverseRecOn with
  | nil =>
    exact ⟨fun h => absurd h not_hasGap_nil, fun h => absurd h not_endsInGap_nil⟩
  | append_singleton keys k ih =>
    rw [List.forall_mem_append] at hkeys
    obtain ⟨t, ht⟩ := Tape.exists_pressAll hkeys.1
    obtain ⟨ihgap, ihend⟩ := ih hkeys.1
    by_cases hsplits : SplitsOperator keys
    · exact ⟨fun _ => hsplits.concat k, fun _ => .inl (hsplits.concat k)⟩
    -- from here on there is no gap on the line yet
    have hnogap : ¬ HasGap t.text := fun h => hsplits (ihgap (by rw [ht]; exact h))
    have hend : EndsInGap t.text → LeavesSpace keys := fun h =>
      (ihend (by rw [ht]; exact h)).resolve_left hsplits
    rw [pressAll_concat, ht]
    have hk : k.isTyping = true := hkeys.2 k (List.mem_singleton_self k)
    have hfailed : t.pad.failed = false := rfl
    rcases screen_press_cases hk hfailed with ⟨ds, hds, hs⟩ | ⟨hneeds, hs⟩ | ⟨rfl, hs⟩ | ⟨rfl, hs⟩
    · -- digits
      obtain ⟨hne, hd⟩ := Key.digits?_spec hds
      rw [hs]
      refine ⟨fun h => ?_, fun h => ?_⟩
      · have hleft := hend ((h.of_append_digits hd).resolve_left hnogap)
        exact ⟨keys, [], k, rfl, hleft, by rw [hds]; rfl⟩
      · obtain ⟨front, c, rfl⟩ := (List.eq_nil_or_concat' ds).resolve_left hne
        rw [← List.append_assoc] at h
        refine absurd h (not_endsInGap_concat _ ?_)
        rintro rfl
        exact absurd (hd ' ' (by simp)) (by decide)
    · -- a key that needs a number
      rcases hs with hs | hs | ⟨op, hs⟩
      · rw [hs]
        exact ⟨fun h => absurd h hnogap, fun h => .inr ((hend h).concat hneeds)⟩
      · rw [hs]
        refine ⟨fun h => absurd (h.of_append_no_digit (by simp)) hnogap, fun h => ?_⟩
        exact absurd h (not_endsInGap_concat _ (by decide))
      · rw [hs]
        refine ⟨fun h => absurd (h.of_append_no_digit ?_) hnogap, fun h => ?_⟩
        · simp [(Tape.glyph_not_numeric op).1]
        · exact absurd h (not_endsInGap_operator _ op)
    · -- taking a character off
      rw [hs]
      refine ⟨fun ⟨x, y, hx, hy, h⟩ => ?_, fun ⟨front, x, hx, h⟩ => .inr ?_⟩
      · have hsub : t.text.dropLast <+: t.text := List.dropLast_prefix t.text
        exact absurd ⟨x, y, hx, hy, h.trans hsub.isInfix⟩ hnogap
      · have hspace : t.text.dropLast = (front ++ [x]) ++ [' '] := by
          rw [List.append_assoc]
          exact h
        rcases t.text_of_dropLast hspace with ⟨op, htext⟩ | ⟨y, hy, htext⟩
        · exact ⟨keys, [], front ++ [x], op, rfl, by rw [ht]; exact htext, by simp⟩
        · refine absurd ⟨x, y, hx, hy, front, [], ?_⟩ hnogap
          rw [htext]
          simp
    · -- clearing
      rw [hs]
      exact ⟨fun h => absurd h not_hasGap_nil, fun h => absurd h not_endsInGap_nil⟩

/-- **How a gap comes about**: a gap is on a line only if an operator was taken off but for its
first space and a digit was typed there. -/
theorem splitsOperator_of_hasGap {keys : List Key} (hkeys : ∀ k ∈ keys, k.isTyping = true)
    (h : HasGap (cleared.pressAll keys).screen) : SplitsOperator keys :=
  (gap_invariant hkeys).1 h

end Pad

end PocketCalculator
