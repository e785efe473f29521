import Mathlib.Data.List.Basic
import Mathlib.Data.List.Induction
import Mathlib.Tactic.Common
import PocketCalculator.Proofs.Display.Shape
import PocketCalculator.Proofs.Pad.Keys

/-!
# Points

No number is meant to have two points. The pad looks at the fact that it remembers, and not at the
line, when a point is typed, so that this fact has to be true of the line. It is after every key but
one: `%` shows a result that has a point and does not note it. A point that is typed right after
that, or after further digits, is a second one.

## Main definitions

* `OnePoint` — no piece of the line between spaces has two points.
* `Pad.ForgetsPoint` — the last key besides digits was a `%` that left a point unnoted.
* `Pad.DoublesPoint` — a point was typed then.

## Main results

* `Pad.sound_pressAll` — what holds as long as no point was typed then.
* `Pad.onePoint_iff` — this is the only way to two points.
-/

namespace PocketCalculator

open Pad (currentNumber)

/-! ## Points of a line -/

/-- No piece of the line between spaces has two points. -/
def OnePoint (line : List Char) : Prop :=
  ∀ piece ∈ line.splitOn ' ', piece.count '.' ≤ 1

/-- Whether a piece has two points is told by counting the points of each. -/
instance (line : List Char) : Decidable (OnePoint line) :=
  inferInstanceAs (Decidable (∀ piece ∈ line.splitOn ' ', piece.count '.' ≤ 1))

/-- The last piece of a line is its current number, and text without spaces goes on with it.

**Proof sketch.** Induction on the line, the last character first. A space begins a new piece, which
is empty, and any other character goes on with the piece that was there. -/
lemma splitOn_append (s : List Char) :
    ∃ older : List (List Char), ∀ t : List Char, ' ' ∉ t →
      (s ++ t).splitOn ' ' = older ++ [currentNumber s ++ t] := by
  induction s using List.reverseRecOn with
  | nil => exact ⟨[], fun t ht => List.splitOn_eq_singleton ht⟩
  | append_singleton s c ih =>
    by_cases hc : c = ' '
    · subst hc
      refine ⟨s.splitOn ' ', fun t ht => ?_⟩
      have hcurrent : currentNumber (s ++ [' ']) = [] := Pad.currentNumber_append_space s (by simp)
      rw [hcurrent, List.append_assoc, List.singleton_append, List.splitOn_append_cons_self,
        List.splitOn_eq_singleton ht, List.nil_append]
    · obtain ⟨older, ih⟩ := ih
      refine ⟨older, fun t ht => ?_⟩
      have hone : ' ' ∉ [c] := by simpa using Ne.symm hc
      rw [List.append_assoc, ih _ (by simpa using ⟨Ne.symm hc, ht⟩),
        Pad.currentNumber_append s hone, List.append_assoc]

/-- A text without spaces is one piece. -/
lemma onePoint_of_no_space {t : List Char} (ht : ' ' ∉ t) : OnePoint t ↔ t.count '.' ≤ 1 := by
  rw [OnePoint, List.splitOn_eq_singleton ht]
  simp

/-- Text without spaces adds its points to the current number.

**Proof sketch.** All pieces but the last are those of the line before, and the last is the current
number with the text added (`splitOn_append`). -/
lemma OnePoint.append {s t : List Char} (h : OnePoint s) (ht : ' ' ∉ t)
    (hcount : (currentNumber s ++ t).count '.' ≤ 1) : OnePoint (s ++ t) := by
  obtain ⟨older, hsplit⟩ := splitOn_append s
  have hs := hsplit [] (by simp)
  rw [List.append_nil, List.append_nil] at hs
  intro piece hpiece
  rw [hsplit t ht, List.mem_append] at hpiece
  rcases hpiece with hpiece | hpiece
  · exact h piece (by rw [hs]; exact List.mem_append_left _ hpiece)
  · rw [List.mem_singleton.mp hpiece]
    exact hcount

/-- The current number is a piece of the line. -/
lemma OnePoint.currentNumber {s : List Char} (h : OnePoint s) :
    (currentNumber s).count '.' ≤ 1 := by
  obtain ⟨older, hsplit⟩ := splitOn_append s
  have hs := hsplit [] (by simp)
  rw [List.append_nil, List.append_nil] at hs
  exact h _ (by rw [hs]; simp)

/-- An operator begins new pieces, and has no points.

**Proof sketch.** Behind the first space of the operator there are two pieces, its sign and the
empty one, and the pieces before are those of the line. -/
lemma OnePoint.append_operator {s : List Char} (h : OnePoint s) (op : Operator) :
    OnePoint (s ++ [' ', op.glyph, ' ']) := by
  intro piece hpiece
  rw [List.splitOn_append_cons_self, List.mem_append] at hpiece
  rcases hpiece with hpiece | hpiece
  · exact h piece hpiece
  · revert piece
    cases op <;> decide

/-- Taking a character off adds no points.

**Proof sketch.** If the last character is a space, an empty piece is lost. Otherwise the last piece
loses a character, and has no more points than before. -/
lemma OnePoint.dropLast {s : List Char} (h : OnePoint s) : OnePoint s.dropLast := by
  rcases List.eq_nil_or_concat' s with rfl | ⟨s, c, rfl⟩
  · exact h
  · rw [List.dropLast_concat]
    intro piece hpiece
    by_cases hc : c = ' '
    · subst hc
      exact h piece (by rw [List.splitOn_append_cons_self]; exact List.mem_append_left _ hpiece)
    · obtain ⟨older, hsplit⟩ := splitOn_append s
      have hs := hsplit [] (by simp)
      have hsc := hsplit [c] (by simpa using Ne.symm hc)
      rw [List.append_nil, List.append_nil] at hs
      rw [hs, List.mem_append] at hpiece
      rcases hpiece with hpiece | hpiece
      · exact h piece (by rw [hsc]; exact List.mem_append_left _ hpiece)
      · rw [List.mem_singleton.mp hpiece]
        have hlast := h (Pad.currentNumber s ++ [c]) (by rw [hsc]; simp)
        rw [List.count_append] at hlast
        omega

/-- A result has one point at most. -/
lemma onePoint_display (v : Float) : OnePoint (display v) := by
  rw [onePoint_of_no_space (space_not_mem_display v), count_point_display]
  split <;> omega

/-! ## The fact that is remembered -/

namespace Pad

/-- The last key besides digits was a `%` that showed a finite result, which has a point, while no
point was noted. -/
def ForgetsPoint (keys : List Key) : Prop :=
  ∃ (before digits : List Key) (v : Float),
    keys = before ++ .percent :: digits ∧ (∀ k ∈ digits, k.digits?.isSome = true) ∧
    (cleared.pressAll before).ready = true ∧ (cleared.pressAll before).pointed = false ∧
    PocketCalculator.percent (cleared.pressAll before).screen = .ok v ∧
    Binary64.magnitude v < Binary64.infinity

/-- A point was typed after such a `%`. -/
def DoublesPoint (keys : List Key) : Prop :=
  ∃ left after : List Key, keys = left ++ .point :: after ∧ ForgetsPoint left

/-- Typing digits adds digits and notes no point. -/
lemma exists_pressAll_digits {p : Pad} (hp : p.failed = false) (hnum : p.numeric = true)
    {digits : List Key} (hd : ∀ k ∈ digits, k.digits?.isSome = true) :
    ∃ ds : List Char, (∀ c ∈ ds, c.isDigit = true) ∧
      p.pressAll digits = ⟨p.screen ++ ds, true, false, p.pointed⟩ := by
  refine ⟨Key.digitsOf digits, (Key.digitsOf_spec hd).1, ?_⟩
  rw [pressAll_digits hp hd, hnum, Bool.true_or]

/-- The pad after such a `%` and digits: a result with a point that is not noted.

**Proof sketch.** The `%` shows a result and leaves the fact as it was, that no point is noted. The
digits after it are added and change nothing about that. -/
lemma ForgetsPoint.exists_pad {keys : List Key} (h : ForgetsPoint keys) :
    ∃ (v : Float) (ds : List Char), Binary64.magnitude v < Binary64.infinity ∧
      (∀ c ∈ ds, c.isDigit = true) ∧
      cleared.pressAll keys = ⟨display v ++ ds, true, false, false⟩ := by
  obtain ⟨before, digits, v, rfl, hd, hready, hpointed, hv, hfin⟩ := h
  have hpress : (cleared.pressAll before).press .percent = ⟨display v, true, false, false⟩ := by
    rw [press_percent_of_ok hready hv, hpointed]
  obtain ⟨ds, hds, hrun⟩ := exists_pressAll_digits (p := (cleared.pressAll before).press .percent)
    (by rw [hpress]) (by rw [hpress]) hd
  refine ⟨v, ds, hfin, hds, ?_⟩
  rw [pressAll_append, pressAll_cons, hrun, hpress]

/-- A number can be used after such a `%`. -/
lemma ForgetsPoint.ready {keys : List Key} (h : ForgetsPoint keys) :
    (cleared.pressAll keys).ready = true := by
  obtain ⟨v, ds, -, -, hp⟩ := h.exists_pad
  rw [hp]
  rfl

/-- Digits change nothing about the point that is not noted. -/
lemma ForgetsPoint.concat {keys : List Key} (h : ForgetsPoint keys) {k : Key}
    (hk : k.digits?.isSome = true) : ForgetsPoint (keys ++ [k]) := by
  obtain ⟨before, digits, v, rfl, hd, hbefore⟩ := h
  refine ⟨before, digits ++ [k], v, by rw [List.append_assoc]; rfl, ?_, hbefore⟩
  refine List.forall_mem_append.mpr ⟨hd, fun l hl => ?_⟩
  rw [List.mem_singleton.mp hl]
  exact hk

/-- What the keys have done, they have done with one more key at the end. -/
lemma DoublesPoint.concat {keys : List Key} (h : DoublesPoint keys) (k : Key) :
    DoublesPoint (keys ++ [k]) := by
  obtain ⟨left, after, rfl, hleft⟩ := h
  exact ⟨left, after ++ [k], by rw [List.append_assoc]; rfl, hleft⟩

/-- A point in the current number that is not noted. -/
def Stale (p : Pad) : Prop :=
  p.pointed = false ∧ '.' ∈ currentNumber p.screen

/-- What holds of the pad as long as no point was typed after a `%` that left one unnoted. -/
structure Sound (keys : List Key) (p : Pad) : Prop where
  /-- There is one point at most in each number. -/
  onePoint : OnePoint p.screen
  /-- Only such a `%` leaves a point unnoted. -/
  noted : Stale p → ForgetsPoint keys

/-- The cleared pad has no points at all. -/
lemma sound_cleared (keys : List Key) : Sound keys cleared :=
  ⟨by decide, fun hstale => absurd hstale.2 (by decide)⟩

/-- A digit key keeps the points of the line and their number.

**Proof sketch.** Digits have no point and no space, so the current number has the points it had. If
one of them is not noted, it was not before, and the last key besides digits is still that `%`. -/
lemma Sound.press_digits {keys : List Key} {p : Pad} (h : Sound keys p) (hp : p.failed = false)
    {k : Key} {ds : List Char} (hk : k.digits? = some ds) : Sound (keys ++ [k]) (p.press k) := by
  have hd := (Key.digits?_spec hk).2
  have hspace : ' ' ∉ ds := not_mem_digits hd rfl
  have hpoint : '.' ∉ ds := not_mem_digits hd rfl
  rw [Pad.press_digits hp hk]
  refine ⟨h.onePoint.append hspace ?_, fun hstale => ?_⟩
  · rw [List.count_append, List.count_eq_zero.mpr hpoint]
    exact h.onePoint.currentNumber
  · obtain ⟨hnot, hmem⟩ := hstale
    rw [currentNumber_append _ hspace, List.mem_append] at hmem
    have hstale : Stale p := ⟨hnot, hmem.resolve_right hpoint⟩
    exact (h.noted hstale).concat (by rw [hk]; rfl)

/-- A key that needs a number and finds none keeps the pad as it is, and no point is unnoted.

**Proof sketch.** The pad stays as it is. If a point were unnoted, such a `%` would have been
pressed, and after one there is a number. -/
lemma Sound.press_not_ready {keys : List Key} {p : Pad} (h : Sound keys p)
    (hp : cleared.pressAll keys = p) (hready : p.ready = false) {k : Key}
    (hk : k.needsNumber = true) : Sound (keys ++ [k]) (p.press k) := by
  rw [press_of_not_ready hk hready]
  refine ⟨h.onePoint, fun hstale => ?_⟩
  have hforgets := (h.noted hstale).ready
  rw [hp, hready] at hforgets
  exact absurd hforgets Bool.false_ne_true

/-- A point is typed only where the current number has none, or after such a `%`.

**Proof sketch.** If a point of the current number were unnoted, this key would double it. So the
fact tells whether the current number has a point, and where it has none the new one is the only
one, and is noted. -/
lemma Sound.press_point {keys : List Key} {p : Pad} (h : Sound keys p) (hready : p.ready = true)
    (hkeys : ¬ DoublesPoint (keys ++ [.point])) :
    Sound (keys ++ [.point]) (p.press .point) := by
  have hnoted : ¬ Stale p := fun hstale => hkeys ⟨keys, [], rfl, h.noted hstale⟩
  rw [press, typePoint]
  by_cases hpointed : p.pointed = true
  · rw [if_neg (by simp [hpointed])]
    exact ⟨h.onePoint, fun hstale => absurd hstale hnoted⟩
  · rw [Bool.not_eq_true] at hpointed
    have hno : '.' ∉ currentNumber p.screen := fun hmem => hnoted ⟨hpointed, hmem⟩
    rw [if_pos (by simp [hready, hpointed])]
    refine ⟨h.onePoint.append (by decide) ?_, fun hstale => ?_⟩
    · rw [List.count_append, List.count_eq_zero.mpr hno]
      decide
    · exact absurd hstale.1 (by simp)

/-- An operator begins a number, which has no point.

**Proof sketch.** The current number is empty behind an operator, and the older pieces keep their
points. -/
lemma Sound.press_operator {keys : List Key} {p : Pad} (h : Sound keys p) (hready : p.ready = true)
    (op : Operator) : Sound (keys ++ [.operator op]) (p.press (.operator op)) := by
  have hcurrent : currentNumber (p.screen ++ [' ', op.glyph, ' ']) = [] := by
    have hcut := currentNumber_append_space (p.screen ++ [' ', op.glyph]) (t := []) (by simp)
    rwa [List.append_assoc] at hcut
  rw [press, typeOperator, if_pos hready]
  refine ⟨h.onePoint.append_operator op, fun hstale => ?_⟩
  have hmem := hstale.2
  rw [hcurrent] at hmem
  exact absurd hmem List.not_mem_nil

/-- The point of a value that `=` shows is noted. -/
lemma Sound.press_equals {keys : List Key} {p : Pad} (hready : p.ready = true)
    (hfailed : (p.press .equals).failed = false) : Sound (keys ++ [.equals]) (p.press .equals) := by
  rcases press_equals_cases hready with ⟨v, -, hpress⟩ | ⟨-, hpress⟩
  · rw [hpress]
    exact ⟨onePoint_display v, fun hstale => absurd hstale.1 (by simp)⟩
  · rw [hpress] at hfailed
    exact absurd hfailed (by simp [fail])

/-- The point of a hundredth that `%` shows is not noted, unless one was before.

**Proof sketch.** A result has no space, so it is the current number. If it has a point it is
finite, and if no point is noted this is just such a `%`. -/
lemma Sound.press_percent {keys : List Key} {p : Pad} (hp : cleared.pressAll keys = p)
    (hready : p.ready = true) (hfailed : (p.press .percent).failed = false) :
    Sound (keys ++ [.percent]) (p.press .percent) := by
  rcases press_percent_cases hready with ⟨v, hv, hpress⟩ | ⟨-, hpress⟩
  · rw [hpress]
    refine ⟨onePoint_display v, fun hstale => ?_⟩
    obtain ⟨hpointed, hmem⟩ := hstale
    have hshown : '.' ∈ display v := by
      rwa [currentNumber_eq_self (space_not_mem_display v)] at hmem
    subst hp
    exact ⟨keys, [], v, rfl, by simp, hready, hpointed, hv, point_mem_display_iff.mp hshown⟩
  · rw [hpress] at hfailed
    exact absurd hfailed (by simp [fail])

/-- Taking a character off reads the fact off what is left.

**Proof sketch.** What is left has no more points than before, and the fact is read off it, so that
no point is unnoted. An empty line has none. -/
lemma Sound.press_delete {keys : List Key} {p : Pad} (h : Sound keys p) :
    Sound (keys ++ [.delete]) (p.press .delete) := by
  rw [press, delete]
  by_cases hempty : p.screen.isEmpty = true
  · rw [if_pos hempty]
    refine ⟨h.onePoint, fun hstale => ?_⟩
    have hmem := hstale.2
    rw [List.isEmpty_iff.mp hempty] at hmem
    exact absurd hmem (by decide)
  · rw [if_neg hempty]
    refine ⟨h.onePoint.dropLast, fun hstale => ?_⟩
    obtain ⟨hnot, hmem⟩ := hstale
    simp only [List.contains_eq_mem, decide_eq_false_iff_not] at hnot
    exact absurd hmem hnot

/-- A line of digits that takes the place of an error has no point.

**Proof sketch.** An error is left by digits, which take its place and have no point, or by `C`. Any
other key stays on it. -/
lemma Sound.press_of_failed {keys : List Key} {p : Pad} (hp : p.failed = true) {k : Key}
    (hfailed : (p.press k).failed = false) : Sound (keys ++ [k]) (p.press k) := by
  have hdigits : ∀ ds, k.digits? = some ds → Sound (keys ++ [k]) (p.press k) := by
    intro ds hk
    have hd := (Key.digits?_spec hk).2
    have hspace : ' ' ∉ ds := not_mem_digits hd rfl
    have hpoint : '.' ∉ ds := not_mem_digits hd rfl
    have hpress : p.press k = ⟨ds, true, false, p.pointed⟩ := by
      rw [press_of_digits? hk, typeDigits, hp]
      rfl
    rw [hpress]
    refine ⟨(onePoint_of_no_space hspace).mpr ?_, fun hstale => ?_⟩
    · rw [List.count_eq_zero.mpr hpoint]
      exact Nat.zero_le 1
    · have hmem := hstale.2
      rw [currentNumber_eq_self hspace] at hmem
      exact absurd hmem hpoint
  have hneeds : k.needsNumber = true → Sound (keys ++ [k]) (p.press k) := by
    intro hk
    rw [Pad.press_of_failed hp hk, hp] at hfailed
    exact absurd hfailed (by decide)
  cases k with
  | digit d => exact hdigits _ rfl
  | doubleZero => exact hdigits _ rfl
  | point => exact hneeds rfl
  | operator op => exact hneeds rfl
  | equals => exact hneeds rfl
  | percent => exact hneeds rfl
  | clear => exact sound_cleared _
  | delete =>
    rw [press, delete] at hfailed
    split at hfailed <;> simp [hp] at hfailed

/-- **One key** keeps what holds as long as no point was typed after a `%` that left one unnoted.

**Proof sketch.** By whether an error is shown (`Sound.press_of_failed`), then by whether the key
needs a number and finds none (`Sound.press_not_ready`), and then key by key, with one lemma for
each. -/
theorem Sound.press {keys : List Key} {p : Pad} (h : p.failed = false → Sound keys p)
    (hp : cleared.pressAll keys = p) {k : Key} (hkeys : ¬ DoublesPoint (keys ++ [k]))
    (hfailed : (p.press k).failed = false) : Sound (keys ++ [k]) (p.press k) := by
  by_cases hpfailed : p.failed = true
  · exact .press_of_failed hpfailed hfailed
  rw [Bool.not_eq_true] at hpfailed
  have hsound := h hpfailed
  have hneeds : k.needsNumber = true → (p.ready = true → Sound (keys ++ [k]) (p.press k)) →
      Sound (keys ++ [k]) (p.press k) := by
    intro hk hready
    cases h : p.ready with
    | false => exact hsound.press_not_ready hp h hk
    | true => exact hready h
  cases k with
  | digit d => exact hsound.press_digits hpfailed rfl
  | doubleZero => exact hsound.press_digits hpfailed rfl
  | point => exact hneeds rfl fun hready => hsound.press_point hready hkeys
  | operator op => exact hneeds rfl fun hready => hsound.press_operator hready op
  | equals => exact hneeds rfl fun hready => .press_equals hready hfailed
  | percent => exact hneeds rfl fun hready => .press_percent hp hready hfailed
  | delete => exact hsound.press_delete
  | clear => exact sound_cleared _

/-- **Any keys** keep it.

**Proof sketch.** Induction on the keys, the last one first. What was not doubled by all keys was
not doubled before, and one key keeps the rest (`Sound.press`), whether or not an error was shown in
between. -/
theorem sound_pressAll {keys : List Key} (hkeys : ¬ DoublesPoint keys)
    (hfailed : (cleared.pressAll keys).failed = false) : Sound keys (cleared.pressAll keys) := by
  induction keys using List.reverseRecOn with
  | nil => exact sound_cleared _
  | append_singleton keys k ih =>
    rw [pressAll_concat] at hfailed ⊢
    exact .press (fun hp => ih (fun h => hkeys (h.concat k)) hp) rfl hkeys hfailed

/-! ## The only way to two points -/

/-- Where a point was typed after such a `%`, the line has two in one number.

**Proof sketch.** The screen shows a finite result, which has a point, and digits behind it, and the
pad accepts another point, as none is noted. All of this is one piece. -/
lemma ForgetsPoint.press_point {keys : List Key} (h : ForgetsPoint keys) :
    ((cleared.pressAll keys).press .point).failed = false ∧
      ¬ OnePoint ((cleared.pressAll keys).press .point).screen := by
  obtain ⟨v, ds, hfin, hd, hp⟩ := h.exists_pad
  have hspace : ' ' ∉ display v ++ ds ++ ['.'] := by
    simp only [List.mem_append, not_or]
    exact ⟨⟨space_not_mem_display v, not_mem_digits hd rfl⟩, by decide⟩
  rw [hp]
  refine ⟨rfl, fun hone => ?_⟩
  have hcount := (onePoint_of_no_space hspace).mp hone
  rw [List.count_append, List.count_append, count_point_display, if_pos hfin] at hcount
  rw [show ['.'].count '.' = 1 from rfl] at hcount
  omega

/-- **The only way to two points in a number** is to type a point after a `%` that gave a finite
result while no point was noted, with nothing but digits between: as long as that has not happened,
no line without an error has two, and where it happens, one has.

**Proof sketch.** If a point was typed after such a `%`, the line had two at that moment
(`ForgetsPoint.press_point`). If none was by all keys, none was by the first of them, and the
invariant holds at every moment without an error (`sound_pressAll`). -/
theorem onePoint_iff (keys : List Key) :
    (∀ ks, ks <+: keys → (cleared.pressAll ks).failed = false →
      OnePoint (cleared.pressAll ks).screen) ↔ ¬ DoublesPoint keys := by
  constructor
  · rintro hone ⟨left, after, rfl, hleft⟩
    obtain ⟨hfailed, htwo⟩ := hleft.press_point
    rw [← pressAll_concat] at hfailed htwo
    exact htwo (hone (left ++ [.point]) ⟨after, by simp⟩ hfailed)
  · rintro hkeys ks ⟨after, rfl⟩ hfailed
    refine (sound_pressAll (fun h => hkeys ?_) hfailed).onePoint
    obtain ⟨left, mid, rfl, hleft⟩ := h
    exact ⟨left, mid ++ after, by rw [List.append_assoc]; rfl, hleft⟩

/-- A point after a percentage: `5`, `%` and a point make a number with two points. -/
theorem percent_point_doubles :
    ¬ ∀ keys : List Key, (cleared.pressAll keys).failed = false →
      OnePoint (cleared.pressAll keys).screen := by
  intro hone
  exact absurd (hone [.digit 5, .percent, .point] (by decide +kernel)) (by decide +kernel)

end Pad

end PocketCalculator
