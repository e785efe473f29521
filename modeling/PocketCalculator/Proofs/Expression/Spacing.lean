import Mathlib.Data.List.Basic
import Mathlib.Logic.Relation
import Mathlib.Tactic.Common
import PocketCalculator.Expression.Parser
import PocketCalculator.Proofs.Expression.Spelling

/-!
# Spaces

Outside of numbers spaces can be put in and taken out, also at both ends of a text: the tokens stay
the same, and with them the value or the cause of the refusal. This is all that there is to the
spelling of tokens, for texts with the same tokens differ by such spaces only.

## Main definitions

* `DropsSpace` — one text is the other one without one space outside of numbers.
* `Respaced` — two texts differ by spaces outside of numbers.
* `Token.written` — tokens written with a space after each.

## Main results

* `Token.respaced_iff` — texts have the same tokens exactly if they differ by spaces.
* `evaluate_respaced` — spaces do not matter.
-/

namespace PocketCalculator

open Token (scan isNumeric)

/-- `DropsSpace s t` says that `t` is `s` without one space, which does not keep two parts of a
number apart. -/
inductive DropsSpace : List Char → List Char → Prop
  | intro (as bs : List Char)
      (apart : ∀ x ∈ as.getLast?, ∀ y ∈ bs.head?, isNumeric x = true → isNumeric y = false) :
      DropsSpace (as ++ ' ' :: bs) (as ++ bs)

/-- Two texts that differ by spaces outside of numbers: such spaces have been put in or taken out,
one after another. -/
def Respaced : List Char → List Char → Prop :=
  Relation.EqvGen DropsSpace

namespace Token

/-- A space outside of numbers has no token.

**Proof sketch.** A cut before the space takes no number apart, the space has no token, and without
it the cut takes no number apart by assumption. -/
lemma scan_eq_of_dropsSpace {s t : List Char} (h : DropsSpace s t) : scan s = scan t := by
  obtain ⟨as, bs, apart⟩ := h
  rw [scan_append_cons as bs (by decide), scan_space, scan_append apart]

/-- Texts that differ by spaces have the same tokens. -/
lemma scan_eq_of_respaced {s t : List Char} (h : Respaced s t) : scan s = scan t := by
  induction h with
  | rel s t h => exact scan_eq_of_dropsSpace h
  | refl s => rfl
  | symm s t _ ih => exact ih.symm
  | trans s t u _ _ ih ih' => exact ih.trans ih'

/-- The characters of a token. -/
def text : Token → List Char
  | number c more => c :: more
  | t => [t.first]

/-- The characters of a symbol are the symbol. -/
lemma text_ofSymbol (c : Char) : (ofSymbol c).text = [c] := by
  unfold ofSymbol
  split <;> rfl

/-- Tokens, each with a space after it. -/
def written (ts : List Token) : List Char :=
  ts.flatMap fun t => t.text ++ [' ']

/-- Behind a space nothing depends on what was before it.

**Proof sketch.** Induction on the spaces that are put in and taken out. Each of them stands behind
the text in front too, and the character before it is the same one, or the space, which is not
numeric. -/
lemma respaced_append_space (as : List Char) {s t : List Char} (h : Respaced s t) :
    Respaced (as ++ ' ' :: s) (as ++ ' ' :: t) := by
  induction h with
  | rel s t h =>
    obtain ⟨bs, cs, apart⟩ := h
    have hdrop : DropsSpace ((as ++ ' ' :: bs) ++ ' ' :: cs) ((as ++ ' ' :: bs) ++ cs) := by
      refine .intro _ cs fun x hx y hy hnum => ?_
      cases bs with
      | nil =>
        obtain rfl : ' ' = x := by simpa using hx
        exact absurd hnum (by decide)
      | cons b bs =>
        refine apart x ?_ y hy hnum
        rwa [List.getLast?_append_of_ne_nil _ (List.cons_ne_nil _ _), List.getLast?_cons_cons] at hx
    have hrespaced : Respaced _ _ := .rel _ _ hdrop
    simpa using hrespaced
  | refl s => exact .refl _
  | symm s t _ ih => exact .symm _ _ ih
  | trans s t u _ _ ih ih' => exact .trans _ _ _ ih ih'

/-- A text that can be cut can be cut by a space. -/
lemma respaced_cut (as : List Char) {bs cs : List Char}
    (apart : ∀ x ∈ as.getLast?, ∀ y ∈ bs.head?, isNumeric x = true → isNumeric y = false)
    (h : Respaced bs cs) : Respaced (as ++ bs) (as ++ ' ' :: cs) :=
  .trans _ _ _ (.symm _ _ (.rel _ _ (.intro as bs apart))) (respaced_append_space as h)

/-- Every text differs by spaces only from its tokens with a space after each.

**Proof sketch.** Induction along the scan. A space in front is taken out, and behind a number or a
symbol, where the text can be cut, one is put in (`respaced_cut`). -/
lemma respaced_written (s : List Char) : Respaced s (written (scan s)) := by
  fun_induction scan s with
  | case1 => exact .refl _
  | case2 cs ih => exact .trans _ _ _ (.rel _ _ (.intro [] cs (by simp))) ih
  | case3 c cs hc hn ih =>
    have hcut := respaced_cut (c :: cs.takeWhile isNumeric)
      (fun _ _ y hy _ => isNumeric_head_dropWhile cs y hy) ih
    rw [List.cons_append, List.takeWhile_append_dropWhile] at hcut
    simpa [written, text] using hcut
  | case4 c cs hc hn ih =>
    have hcut := respaced_cut [c] (fun x hx _ _ hnum => by
      obtain rfl : c = x := by simpa using hx
      exact absurd hnum hn) ih
    simpa [written, text_ofSymbol] using hcut

/-- **The spelling of tokens**: two texts have the same tokens exactly if they differ by spaces
outside of numbers.

**Proof sketch.** Putting in and taking out spaces changes no token (`scan_eq_of_respaced`).
Conversely, both texts differ by spaces from their tokens with a space after each
(`respaced_written`), which are the same. -/
theorem respaced_iff {s t : List Char} : Respaced s t ↔ scan s = scan t := by
  refine ⟨scan_eq_of_respaced, fun h => ?_⟩
  have ht := respaced_written t
  rw [← h] at ht
  exact .trans _ _ _ (respaced_written s) (.symm _ _ ht)

end Token

/-- What a text evaluates to depends on its tokens only. -/
lemma evaluate_eq_of_scan {s t : List Char} (h : scan s = scan t) : evaluate s = evaluate t := by
  simp only [evaluate, Expr.parse, h]

/-- **Spaces do not matter**: one that does not keep two parts of a number apart can be put in or
taken out anywhere in a text, and so can any number of them. The text has the same value, or it is
refused for the same cause.

**Proof sketch.** A text is evaluated from its tokens, and these stay the same when a space is taken
out (`Token.scan_eq_of_dropsSpace`), and so when any number of them is put in or taken out
(`Token.respaced_iff`). -/
theorem evaluate_respaced :
    (∀ as bs : List Char,
      (∀ x ∈ as.getLast?, ∀ y ∈ bs.head?, isNumeric x = true → isNumeric y = false) →
      evaluate (as ++ ' ' :: bs) = evaluate (as ++ bs)) ∧
    ∀ s t, Respaced s t → evaluate s = evaluate t :=
  ⟨fun as bs apart => evaluate_eq_of_scan (Token.scan_eq_of_dropsSpace (.intro as bs apart)),
    fun _ _ h => evaluate_eq_of_scan (Token.respaced_iff.mp h)⟩

/-- The general result for a space after an operator, in a text that is refused for its end, and for
the spaces around a text. -/
theorem evaluate_respaced_refused :
    evaluate "2 *( 3 -".toList = evaluate "2 *(3 -".toList ∧
      evaluate "2 *(3 -".toList = .error (.unexpected none) ∧
      Respaced "  .5 ".toList ".5".toList ∧
      evaluate "  .5 ".toList = evaluate ".5".toList := by
  have hspaces : Respaced "  .5 ".toList ".5".toList :=
    .trans _ _ _ (.rel _ _ (.intro [] " .5 ".toList (by simp)))
      (.trans _ _ _ (.rel _ _ (.intro [] ".5 ".toList (by simp)))
        (.rel _ _ (.intro ".5".toList [] (by simp))))
  have hapart : ∀ x ∈ "2 *(".toList.getLast?, ∀ y ∈ "3 -".toList.head?,
      isNumeric x = true → isNumeric y = false := by
    intro x hx _ _ hnum
    obtain rfl : '(' = x := by simpa using hx
    exact absurd hnum (by decide)
  exact ⟨evaluate_respaced.1 _ _ hapart, by decide +kernel, hspaces,
    evaluate_respaced.2 _ _ hspaces⟩

/-- A space inside a number does matter. -/
example : evaluate "1 2".toList ≠ evaluate "12".toList := by
  decide +kernel

end PocketCalculator
