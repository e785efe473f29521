import Mathlib.Data.List.Basic
import Mathlib.Data.List.TakeWhile
import Mathlib.Tactic.Common
import PocketCalculator.Expression.Token

/-!
# Texts and their tokens

Which tokens a text has is said by a relation of its own: spaces may stand before every token and at
the end, and a number goes on as far as there are digits and points. Every text spells exactly the
tokens that the scanner finds in it. The scanner takes a text apart wherever it is not cut inside a
number, so that the tokens of a longer text can be put together from those of its parts.

## Main definitions

* `Token.Spells` — a text has these tokens.
* `Token.IsLexical` — a token that texts have.
* `Token.ofRun` — the token of a run.
* `Token.IsCut` — a place where a text can be cut.

## Main results

* `Token.spells_iff` — a text spells exactly the tokens that scanning finds.
* `Token.scan_append` — scanning two texts one after the other.
* `Token.exists_cut` — wherever the tokens of a text are cut, the text can be cut.
* `Token.count_scan` — scanning keeps the number of each symbol.
-/

namespace PocketCalculator.Token

/-- `Spells ts cs` says that the text `cs` has the tokens `ts`. -/
inductive Spells : List Token → List Char → Prop
  /-- Spaces may stand at the end. -/
  | nil (n : ℕ) : Spells [] (List.replicate n ' ')
  /-- Spaces may stand before a number, which is a run that cannot be made longer. -/
  | number (n : ℕ) {c : Char} {more cs : List Char} {ts : List Token}
      (run : ∀ x ∈ c :: more, isNumeric x = true) (maximal : ∀ x ∈ cs.head?, isNumeric x = false)
      (rest : Spells ts cs) :
      Spells (number c more :: ts) (List.replicate n ' ' ++ (c :: more) ++ cs)
  /-- Spaces may stand before any other character, which is a token by itself. -/
  | symbol (n : ℕ) {c : Char} {cs : List Char} {ts : List Token}
      (outside : isNumeric c = false) (visible : c ≠ ' ') (rest : Spells ts cs) :
      Spells (ofSymbol c :: ts) (List.replicate n ' ' ++ c :: cs)

/-- The run of a number has nothing but digits and points. Other tokens are lexical anyway. -/
def IsLexical : Token → Prop
  | .number c more => ∀ x ∈ c :: more, isNumeric x = true
  | _ => True

/-! ## Scanning one token -/

/-- The character after a longest run does not belong into numbers. -/
lemma isNumeric_head_dropWhile (cs : List Char) :
    ∀ x ∈ (cs.dropWhile isNumeric).head?, isNumeric x = false := by
  intro x hx
  have hnot := List.head?_dropWhile_not isNumeric cs
  rw [Option.mem_def.mp hx] at hnot
  exact hnot

/-- A run that is followed by nothing numeric is the longest one.

**Proof sketch.** The whole run is taken, and the character after it, if there is one, is not. -/
lemma takeWhile_run {run cs : List Char} (hrun : ∀ x ∈ run, isNumeric x = true)
    (hcs : ∀ x ∈ cs.head?, isNumeric x = false) : (run ++ cs).takeWhile isNumeric = run := by
  rw [List.takeWhile_append_of_pos hrun]
  cases cs with
  | nil => simp
  | cons c cs => rw [List.takeWhile_cons_of_neg (by simp [hcs c rfl]), List.append_nil]

@[inherit_doc takeWhile_run]
lemma dropWhile_run {run cs : List Char} (hrun : ∀ x ∈ run, isNumeric x = true)
    (hcs : ∀ x ∈ cs.head?, isNumeric x = false) : (run ++ cs).dropWhile isNumeric = cs := by
  rw [List.dropWhile_append_of_pos hrun]
  cases cs with
  | nil => rfl
  | cons c cs => exact List.dropWhile_cons_of_neg (by simp [hcs c rfl])

/-- Spaces have no tokens. -/
lemma scan_spaces (n : ℕ) (cs : List Char) : scan (List.replicate n ' ' ++ cs) = scan cs := by
  induction n with
  | zero => rfl
  | succ n ih => rw [List.replicate_succ, List.cons_append, scan_space, ih]

/-- A run is scanned as one number, if nothing numeric follows it. -/
lemma scan_run {c : Char} {more cs : List Char} (hrun : ∀ x ∈ c :: more, isNumeric x = true)
    (hcs : ∀ x ∈ cs.head?, isNumeric x = false) :
    scan (c :: more ++ cs) = number c more :: scan cs := by
  rw [List.forall_mem_cons] at hrun
  rw [List.cons_append, scan_numeric hrun.1, takeWhile_run hrun.2 hcs, dropWhile_run hrun.2 hcs]

/-- The token of a run, if there is anything in it. -/
def ofRun : List Char → List Token
  | [] => []
  | c :: more => [number c more]

/-- A run in front of something else is scanned by itself. -/
lemma scan_ofRun {run cs : List Char} (hrun : ∀ x ∈ run, isNumeric x = true)
    (hcs : ∀ x ∈ cs.head?, isNumeric x = false) : scan (run ++ cs) = ofRun run ++ scan cs := by
  cases run with
  | nil => rfl
  | cons c more => exact scan_run hrun hcs

/-- Scanning gives lexical tokens.

**Proof sketch.** Induction along the scan. The run of a number is taken as long as its characters
are numeric, and the token of a symbol is lexical anyway. -/
lemma isLexical_of_mem_scan {cs : List Char} {t : Token} (h : t ∈ scan cs) : t.IsLexical := by
  fun_induction scan cs with
  | case1 => simp at h
  | case2 cs ih => exact ih h
  | case3 c cs hc hn ih =>
    rcases List.mem_cons.mp h with rfl | h
    · exact List.forall_mem_cons.mpr ⟨hn, fun x hx => List.mem_takeWhile_imp hx⟩
    · exact ih h
  | case4 c cs hc hn ih =>
    rcases List.mem_cons.mp h with rfl | h
    · unfold ofSymbol
      split <;> trivial
    · exact ih h

/-! ## Spelling -/

/-- A further space in front changes no token. -/
lemma Spells.space {ts : List Token} {cs : List Char} (h : Spells ts cs) :
    Spells ts (' ' :: cs) := by
  cases h with
  | nil n => exact .nil (n + 1)
  | number n run maximal rest => exact .number (n + 1) run maximal rest
  | symbol n outside visible rest => exact .symbol (n + 1) outside visible rest

/-- A text spells the tokens that are found in it.

**Proof sketch.** Induction along the scan: a space goes in front of what the rest spells
(`Spells.space`), a number is taken as far as it goes, and a symbol is a token by itself. -/
lemma spells_scan (cs : List Char) : Spells (scan cs) cs := by
  fun_induction scan cs with
  | case1 => exact .nil 0
  | case2 cs ih => exact ih.space
  | case3 c cs hc hn ih =>
    have hrun : ∀ x ∈ c :: cs.takeWhile isNumeric, isNumeric x = true :=
      List.forall_mem_cons.mpr ⟨hn, fun x hx => List.mem_takeWhile_imp hx⟩
    have h := Spells.number 0 hrun (isNumeric_head_dropWhile cs) ih
    simpa using h
  | case4 c cs hc hn ih => exact .symbol 0 (by simpa using hn) hc ih

/-- A text spells no other tokens than those that are found in it.

**Proof sketch.** Induction on the spelling. Spaces are dropped (`scan_spaces`), a run that cannot
be made longer is scanned as one number (`scan_run`), and a symbol by itself. -/
lemma Spells.scan_eq {ts : List Token} {cs : List Char} (h : Spells ts cs) : scan cs = ts := by
  induction h with
  | nil n => simpa using scan_spaces n []
  | number n run maximal rest ih =>
    rw [List.append_assoc, scan_spaces, scan_run run maximal, ih]
  | symbol n outside visible rest ih => rw [scan_spaces, scan_symbol outside visible, ih]

/-- **Scanning is spelling read backwards**: a text spells exactly one list of tokens, and scanning
finds it. -/
theorem spells_iff {ts : List Token} {cs : List Char} : Spells ts cs ↔ scan cs = ts :=
  ⟨Spells.scan_eq, fun h => h ▸ spells_scan cs⟩

/-! ## Scanning texts in parts -/

/-- **Scanning in parts**: the tokens of two texts, one after the other, are those of the first and
then those of the second, unless a number goes on across the cut.

**Proof sketch.** Induction along the scan of the first text. Only a number can reach the cut: if it
ends before, the text after it is cut in the same place; if it ends at the cut, the second text does
not go on with it. -/
theorem scan_append {as bs : List Char}
    (h : ∀ x ∈ as.getLast?, ∀ y ∈ bs.head?, isNumeric x = true → isNumeric y = false) :
    scan (as ++ bs) = scan as ++ scan bs := by
  have hlast : ∀ {c : Char} {cs : List Char}, ∀ x ∈ cs.getLast?, x ∈ (c :: cs).getLast? := by
    intro c cs x hx
    rw [List.getLast?_cons, Option.mem_def.mp hx]
    rfl
  fun_induction scan as with
  | case1 => rfl
  | case2 cs ih =>
    rw [List.cons_append, scan_space]
    exact ih fun x hx => h x (hlast x hx)
  | case3 c cs hc hn ih =>
    rw [List.cons_append, scan_numeric hn, List.cons_append]
    by_cases hall : ∀ x ∈ cs, isNumeric x = true
    · -- the number ends at the cut
      have hrun : ∀ x ∈ c :: cs, isNumeric x = true := List.forall_mem_cons.mpr ⟨hn, hall⟩
      obtain ⟨x, hx, hxn⟩ : ∃ x ∈ (c :: cs).getLast?, isNumeric x = true :=
        ⟨_, List.getLast?_eq_some_getLast (List.cons_ne_nil c cs), hrun _ (List.getLast_mem _)⟩
      have hbs : ∀ y ∈ bs.head?, isNumeric y = false := fun y hy => h x hx y hy hxn
      rw [takeWhile_run hall hbs, dropWhile_run hall hbs, List.takeWhile_eq_self_iff.mpr hall,
        List.dropWhile_eq_nil_iff.mpr hall, scan_nil, List.nil_append]
    · -- the number ends before the cut
      have hne : cs.dropWhile isNumeric ≠ [] := fun hnil => hall (List.dropWhile_eq_nil_iff.mp hnil)
      have htake : (cs ++ bs).takeWhile isNumeric = cs.takeWhile isNumeric := by
        rw [List.takeWhile_append, if_neg]
        intro hlen
        exact hall (List.takeWhile_eq_self_iff.mp
          ((List.takeWhile_prefix isNumeric).eq_of_length hlen))
      have hdrop : (cs ++ bs).dropWhile isNumeric = cs.dropWhile isNumeric ++ bs := by
        rw [List.dropWhile_append, if_neg (by simpa using hne)]
      rw [htake, hdrop, ih]
      intro x hx
      refine h x (hlast x ?_)
      rw [← List.takeWhile_append_dropWhile (p := isNumeric) (l := cs), List.getLast?_append,
        Option.mem_def.mp hx]
      rfl
  | case4 c cs hc hn ih =>
    rw [List.cons_append, scan_symbol (by simpa using hn) hc, List.cons_append]
    rw [ih fun x hx => h x (hlast x hx)]

/-- A cut before a character outside numbers takes no number apart. -/
lemma scan_append_cons {b : Char} (as bs : List Char) (hb : isNumeric b = false) :
    scan (as ++ b :: bs) = scan as ++ scan (b :: bs) := by
  apply scan_append
  intro x _ y hy _
  obtain rfl : b = y := by simpa using hy
  exact hb

/-- The first token of a text that does not begin with a space: if its character belongs into
numbers it is a number, however the text goes on, and otherwise it is the token of the character. -/
lemma scan_cons_cases {c : Char} (hc : c ≠ ' ') :
    (isNumeric c = true ∧ ∀ cs, ∃ more ts, scan (c :: cs) = number c more :: ts) ∨
      (isNumeric c = false ∧ ∀ cs, scan (c :: cs) = ofSymbol c :: scan cs) := by
  cases hnum : isNumeric c with
  | true => exact .inl ⟨rfl, fun cs => ⟨_, _, scan_numeric hnum cs⟩⟩
  | false => exact .inr ⟨rfl, scan_symbol hnum hc⟩

/-- The last character of a longer text is that of its end. -/
lemma mem_getLast?_of_cons {c x : Char} {cs : List Char} (hne : cs ≠ [])
    (h : x ∈ (c :: cs).getLast?) : x ∈ cs.getLast? := by
  rwa [← List.singleton_append, List.getLast?_append_of_ne_nil _ hne] at h

/-- A text that ends with a digit or a point has a number as its last token.

**Proof sketch.** Induction along the scan. As long as text is left, the last character is one of
it, and the last token comes from there. If a number takes up all that is left, it is the last
token, and a space or a symbol that does is not numeric. -/
lemma getLast?_scan {cs : List Char} {x : Char} (hx : x ∈ cs.getLast?)
    (hnum : isNumeric x = true) : ∃ c more, number c more ∈ (scan cs).getLast? := by
  have hcons : ∀ {t t' : Token} {ts : List Token}, t ∈ ts.getLast? → t ∈ (t' :: ts).getLast? := by
    intro t t' ts ht
    rw [List.getLast?_cons, Option.mem_def.mp ht]
    rfl
  fun_induction scan cs with
  | case1 => simp at hx
  | case2 cs ih =>
    by_cases hnil : cs = []
    · obtain rfl : ' ' = x := by simpa [hnil] using hx
      exact absurd hnum (by decide)
    · exact ih (mem_getLast?_of_cons hnil hx)
  | case3 c cs hc hn ih =>
    by_cases hdrop : cs.dropWhile isNumeric = []
    · rw [hdrop, scan_nil]
      exact ⟨c, _, rfl⟩
    · have hcut := List.takeWhile_append_dropWhile (p := isNumeric) (l := cs)
      rw [← hcut, ← List.cons_append, List.getLast?_append_of_ne_nil _ hdrop] at hx
      obtain ⟨c', more, hlast⟩ := ih hx
      exact ⟨c', more, hcons hlast⟩
  | case4 c cs hc hn ih =>
    by_cases hnil : cs = []
    · obtain rfl : c = x := by simpa [hnil] using hx
      exact absurd hnum hn
    · obtain ⟨c', more, hlast⟩ := ih (mem_getLast?_of_cons hnil hx)
      exact ⟨c', more, hcons hlast⟩

/-- A cut in a text that takes no number apart, and after which no space stands. -/
structure IsCut (s u : List Char) : Prop where
  /-- No number goes on across the cut. -/
  apart : ∀ x ∈ s.getLast?, ∀ y ∈ u.head?, isNumeric x = true → isNumeric y = false
  /-- The spaces are before the cut. -/
  visible : u.head? ≠ some ' '

/-- A cut stays one with more text in front, unless it is at the beginning of a number there.

**Proof sketch.** If there is text before the cut, its last character stays the last with more in
front. If there is none, the last character of what is put in front is the one to be looked at. -/
lemma IsCut.append {s u r : List Char} (h : IsCut s u)
    (hr : s = [] → ∀ x ∈ r.getLast?, ∀ y ∈ u.head?, isNumeric x = true → isNumeric y = false) :
    IsCut (r ++ s) u where
  apart x hx := by
    by_cases hnil : s = []
    · rw [hnil, List.append_nil] at hx
      exact hr hnil x hx
    · rw [List.getLast?_append_of_ne_nil _ hnil] at hx
      exact h.apart x hx
  visible := h.visible

/-- **Wherever the tokens of a text are cut**, the text can be cut.

**Proof sketch.** Induction along the scan; as long as there are tokens before the cut, the text
that they come from is put before it. -/
theorem exists_cut {cs : List Char} {pre rest : List Token} (h : scan cs = pre ++ rest) :
    ∃ s u, cs = s ++ u ∧ IsCut s u ∧ scan s = pre ∧ scan u = rest := by
  fun_induction scan cs generalizing pre with
  | case1 =>
    obtain ⟨rfl, rfl⟩ := List.append_eq_nil_iff.mp h.symm
    exact ⟨[], [], rfl, ⟨by simp, by simp⟩, scan_nil, scan_nil⟩
  | case2 cs ih =>
    obtain ⟨s, u, rfl, hcut, hs, hu⟩ := ih h
    refine ⟨' ' :: s, u, rfl, hcut.append (r := [' ']) fun _ x hx y _ hnum => ?_, ?_, hu⟩
    · obtain rfl : ' ' = x := by simpa using hx
      exact absurd hnum (by decide)
    · rw [scan_space, hs]
  | case3 c cs hc hn ih =>
    cases pre with
    | nil =>
      refine ⟨[], c :: cs, rfl, ⟨by simp, by simpa using hc⟩, scan_nil, ?_⟩
      rw [scan_numeric hn, h, List.nil_append]
    | cons t pre =>
      rw [List.cons_append, List.cons.injEq] at h
      obtain ⟨rfl, h⟩ := h
      obtain ⟨s, u, hsplit, hcut, hs, hu⟩ := ih h
      have hrun : ∀ x ∈ c :: cs.takeWhile isNumeric, isNumeric x = true :=
        List.forall_mem_cons.mpr ⟨hn, fun x hx => List.mem_takeWhile_imp hx⟩
      have hhead := isNumeric_head_dropWhile cs
      rw [hsplit] at hhead
      refine ⟨c :: cs.takeWhile isNumeric ++ s, u, ?_, hcut.append fun hnil _ _ y hy _ => ?_, ?_,
        hu⟩
      · rw [List.append_assoc, ← hsplit, List.cons_append, List.takeWhile_append_dropWhile]
      · rw [hnil] at hhead
        exact hhead y hy
      · rw [scan_run hrun fun x hx => hhead x (List.mem_head?_append_of_mem_head? hx), hs]
  | case4 c cs hc hn ih =>
    cases pre with
    | nil =>
      refine ⟨[], c :: cs, rfl, ⟨by simp, by simpa using hc⟩, scan_nil, ?_⟩
      rw [scan_symbol (by simpa using hn) hc, h, List.nil_append]
    | cons t pre =>
      rw [List.cons_append, List.cons.injEq] at h
      obtain ⟨rfl, h⟩ := h
      obtain ⟨s, u, rfl, hcut, hs, hu⟩ := ih h
      refine ⟨c :: s, u, rfl, hcut.append (r := [c]) fun _ x hx y _ hnum => ?_, ?_, hu⟩
      · obtain rfl : c = x := by simpa using hx
        exact absurd hnum hn
      · rw [scan_symbol (by simpa using hn) hc, hs]

/-- Closing parentheses at the end of a text are tokens at the end of its tokens.

**Proof sketch.** Induction on the number of parentheses, taking the first of them into the text: a
cut before a parenthesis takes no number apart. -/
lemma scan_append_closing (cs : List Char) (k : ℕ) :
    scan (cs ++ List.replicate k ')') = scan cs ++ List.replicate k closeParen := by
  induction k generalizing cs with
  | zero => simp
  | succ k ih =>
    have hcons : cs ++ List.replicate (k + 1) ')' = (cs ++ [')']) ++ List.replicate k ')' := by
      rw [List.replicate_succ, List.append_assoc, List.singleton_append]
    rw [hcons, ih, scan_append_cons cs [] (by decide), scan_symbol (by decide) (by decide),
      scan_nil, List.append_assoc]
    rfl

/-! ## Counting symbols -/

/-- Symbols are different tokens if they are different characters.

**Proof sketch.** The character of a token can be read off it again (`first_ofSymbol`). -/
lemma ofSymbol_inj {c d : Char} : ofSymbol c = ofSymbol d ↔ c = d := by
  refine ⟨fun h => ?_, fun h => h ▸ rfl⟩
  rw [← first_ofSymbol c, h, first_ofSymbol]

/-- A symbol is not a number. -/
lemma ofSymbol_ne_number (s c : Char) (more : List Char) : ofSymbol s ≠ number c more := by
  unfold ofSymbol
  split <;> simp

/-- **Counting symbols**: a text has as many of a symbol as its tokens do.

**Proof sketch.** Induction along the scan. The symbol is no space and stands in no number, so that
only the tokens of symbols are counted, and one of them is that of the symbol exactly if its
character is. -/
theorem count_scan {s : Char} (hs : isNumeric s = false) (hspace : s ≠ ' ') (cs : List Char) :
    (scan cs).count (ofSymbol s) = cs.count s := by
  fun_induction scan cs with
  | case1 => rfl
  | case2 cs ih => rw [ih, List.count_cons_of_ne hspace.symm]
  | case3 c cs hc hn ih =>
    have hcs : cs.count s = (cs.dropWhile isNumeric).count s := by
      have hrun : (cs.takeWhile isNumeric).count s = 0 := by
        refine List.count_eq_zero.mpr fun hmem => ?_
        rw [List.mem_takeWhile_imp hmem] at hs
        exact absurd hs (by decide)
      conv_lhs => rw [← List.takeWhile_append_dropWhile (p := isNumeric) (l := cs)]
      rw [List.count_append, hrun, Nat.zero_add]
    have hne : c ≠ s := by
      rintro rfl
      simp [hs] at hn
    rw [List.count_cons_of_ne (ofSymbol_ne_number s c _).symm, ih, List.count_cons_of_ne hne, hcs]
  | case4 c cs hc hn ih =>
    rw [List.count_cons, List.count_cons, ih]
    simp [ofSymbol_inj]

end PocketCalculator.Token
