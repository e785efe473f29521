import Mathlib.Data.List.TakeWhile
import Mathlib.Tactic.Common
import PocketCalculator.CommandLine

/-!
# What is documented of the libraries

The library that finds options among the arguments is known by its documentation only. It says in
which ways an option can be given its value, what a declaration has to allow for a value that begins
with a hyphen, that options which exclude each other cannot be given together, and with which code a
program ends whose arguments make no sense. Each of these is a hypothesis here, and what is proved
of the program holds with every library that meets them. The parser that the program is run with
does.

## Main definitions

* `CommandLine.Libraries.Gives` — arguments give an option a value.
* `CommandLine.Libraries.Documented` — what is documented.

## Main results

* `CommandLine.Arguments.collect_append` — arguments that give options are read off the front.
* `CommandLine.documented_libraries` — the program is run with libraries as they are documented.
-/

namespace PocketCalculator.CommandLine

/-! ## Hypotheses -/

namespace Libraries

variable (libs : Libraries) (decls : List Declared)

/-- `libs.Gives decls d value args` says that the arguments `args` give the option `d` the value
`value`: in front of arguments that give other options, none of which `d` excludes, they add this
one. -/
def Gives (d : Declared) (value : List Char) (args : List (List Char)) : Prop :=
  ∀ rest given, libs.parse decls rest = .ok given → (∀ g ∈ given, d ≠ g.1 ∧ ¬d.Excludes g.1) →
    libs.parse decls (args ++ rest) = .ok ((d, value) :: given)

/-- What is documented of the parser of options, if `decls` are declared: options with one value
each that need not be given. -/
structure Documented : Prop where
  /-- No option has to be given. -/
  nothing : libs.parse decls [] = .ok []
  /-- `-o value`: the value is the next argument after the letter. It may begin with a hyphen, and
  look like an option, if that is declared. -/
  short : ∀ d ∈ decls, ∀ letter ∈ d.letter?, ∀ value, d.Accepts value →
    libs.Gives decls d value [['-', letter], value]
  /-- `-o=value`: the value is attached to the letter by an equals sign. -/
  shortAttached : ∀ d ∈ decls, ∀ letter ∈ d.letter?, ∀ value, d.Accepts value →
    libs.Gives decls d value ['-' :: letter :: '=' :: value]
  /-- `-ovalue`: the value is attached to the letter as it is. -/
  glued : ∀ d ∈ decls, ∀ letter ∈ d.letter?, ∀ value, d.Accepts value → value ≠ [] →
    value.head? ≠ some '=' → libs.Gives decls d value ['-' :: letter :: value]
  /-- `--option value`: the value is the next argument after the name. -/
  long : ∀ d ∈ decls, ∀ value, d.Accepts value →
    libs.Gives decls d value ['-' :: '-' :: d.name, value]
  /-- `--option=value`: the value is attached to the name by an equals sign. -/
  longAttached : ∀ d ∈ decls, ∀ value, d.Accepts value →
    libs.Gives decls d value ['-' :: '-' :: d.name ++ '=' :: value]
  /-- Options that exclude each other cannot be given together, whichever one comes first and
  whichever one declares it. -/
  conflict : ∀ d ∈ decls, ∀ d' ∈ decls, d.Excludes d' → ∀ value value' args args',
    libs.Gives decls d value args → libs.Gives decls d' value' args' →
      libs.parse decls (args ++ args') = .error .conflict
  /-- A program whose arguments make no sense ends with code 2. What is wrong is written to the
  standard error, and nothing to the standard output. -/
  exit_misuse : ∀ r : Refusal, r.isMisuse = true → libs.exit r = ⟨2, []⟩

end Libraries

/-! ## The options of the program -/

/-- The letter of an option. -/
def Choice.letter : Choice → Char
  | expression => 'e'
  | percent => 'p'

/-- Both options are declared, and no others.

**Proof sketch.** The list has one entry for each of the two choices. -/
lemma mem_declaredOptions {d : Declared} : d ∈ declaredOptions ↔ ∃ c : Choice, d = c.declared := by
  constructor
  · intro h
    rcases List.mem_cons.mp h with rfl | h
    · exact ⟨.expression, rfl⟩
    · exact ⟨.percent, List.mem_singleton.mp h⟩
  · rintro ⟨c, rfl⟩
    cases c with
    | expression => exact List.mem_cons_self
    | percent => exact List.mem_cons_of_mem _ (List.mem_singleton.mpr rfl)

/-- Each option has a letter. -/
lemma Choice.letter?_declared (c : Choice) : c.declared.letter? = some c.letter := by
  cases c <;> rfl

/-- A letter that is declared is the letter of an option. -/
lemma exists_choice_of_letter {d : Declared} {letter : Char} (hd : d ∈ declaredOptions)
    (hletter : letter ∈ d.letter?) : ∃ c : Choice, d = c.declared ∧ letter = c.letter := by
  obtain ⟨c, rfl⟩ := mem_declaredOptions.mp hd
  exact ⟨c, rfl, Option.some.inj (hletter.symm.trans c.letter?_declared)⟩

/-- Each option is declared by its name. -/
lemma Choice.name_declared (c : Choice) : c.declared.name = c.name := by
  cases c <;> rfl

/-- Every text may be the value of an option. -/
lemma Choice.accepts (c : Choice) (value : List Char) : c.declared.Accepts value := by
  cases c <;> exact .inl rfl

namespace Arguments

variable {c : Choice} {value : List Char} {args : List (List Char)}

/-! ## One argument -/

/-- No name has an equals sign. -/
lemma ne_equals_of_mem_name (c : Choice) : ∀ x ∈ c.name, (x != '=') = true := by
  have hall : c.name.all (· != '=') = true := by
    cases c <;> rfl
  exact List.all_eq_true.mp hall

/-- What follows the letter of an option is its value. -/
lemma ofArg_short (c : Choice) (cs : List Char) :
    Word.ofArg declaredOptions ('-' :: c.letter :: cs) = .option c.declared (attached? cs) := by
  cases c <;> rfl

/-- What is attached to the long name of an option is its value.

**Proof sketch.** The argument is longer than the two hyphens by the name, so that it is no
separator. Its name is split off, and the option is found by it. -/
lemma ofArg_long {c : Choice} {cs : List Char} {value? : Option (List Char)}
    (h : splitLong (c.name ++ cs) = (c.name, value?)) :
    Word.ofArg declaredOptions ('-' :: '-' :: c.name ++ cs) = .option c.declared value? := by
  have hne : c.name ++ cs = [] → False := by
    cases c <;> exact nofun
  have hfind : declaredOptions.find? (·.name = c.name) = some c.declared := by
    cases c <;> rfl
  rw [List.cons_append, List.cons_append, Word.ofArg.eq_2 _ _ hne, h, Word.ofLong, hfind]

/-- A name by itself has no value attached. -/
lemma splitLong_name (c : Choice) : splitLong c.name = (c.name, none) := by
  cases c <;> decide

/-- A name ends at the first equals sign, and the value is all that follows it.

**Proof sketch.** No name has an equals sign, so that the text in front of the first one is the
name, and what is dropped with that sign leaves the value. -/
lemma splitLong_attached (c : Choice) (value : List Char) :
    splitLong (c.name ++ '=' :: value) = (c.name, some value) := by
  have hname := ne_equals_of_mem_name c
  have htake : (c.name ++ '=' :: value).takeWhile (· != '=') = c.name := by
    rw [List.takeWhile_append_of_pos hname, List.takeWhile_cons_of_neg (by decide),
      List.append_nil]
  have hdrop : (c.name ++ '=' :: value).dropWhile (· != '=') = '=' :: value := by
    rw [List.dropWhile_append_of_pos hname, List.dropWhile_cons_of_neg (by decide)]
  rw [splitLong, hdrop, htake]

/-- The value glued to a letter is taken as it is. -/
lemma attached?_glued (nonempty : value ≠ []) (plain : value.head? ≠ some '=') :
    attached? value = some value := by
  unfold attached?
  split
  · exact absurd rfl nonempty
  · exact absurd rfl plain
  · rfl

/-! ## Several arguments -/

variable {decls : List Declared} {d : Declared} {given : Given}

/-- An option with its value attached is noted. -/
lemma collect_attached {arg : List Char} (h : Word.ofArg decls arg = .option d (some value))
    (rest : List (List Char)) :
    collect decls (arg :: rest) = note d value (collect decls rest) := by
  rw [collect.eq_def]
  simp only [h]

/-- An option without its value takes the next argument, if it accepts that. -/
lemma collect_separate {arg : List Char} (h : Word.ofArg decls arg = .option d none)
    (haccepts : d.Accepts value) (rest : List (List Char)) :
    collect decls (arg :: value :: rest) = note d value (collect decls rest) := by
  rw [collect.eq_def]
  simp only [h, if_pos haccepts]

/-- **Arguments that give options are read off the front** of others, if they are complete: the last
option has its value, and the end of the options has not been reached.

**Proof sketch.** Induction along the reading of the front. It cannot end with an option that waits
for its value, for then the front alone is incomplete. It cannot end with a separator either, for
then a further separator behind it is no option. -/
theorem collect_append (h : (collect decls args).2 = none)
    (hseparator : (collect decls (args ++ [['-', '-']])).2 = none) (rest : List (List Char)) :
    collect decls (args ++ rest) =
      ((collect decls args).1 ++ (collect decls rest).1, (collect decls rest).2) := by
  fun_induction collect decls args with
  | case1 => rfl
  | case2 arg hword =>
    rw [collect.eq_def] at hseparator
    simp [hword] at hseparator
  | case3 => exact absurd h nofun
  | case4 => exact absurd h nofun
  | case5 arg args d value hword ih =>
    rw [List.cons_append, collect_attached hword] at hseparator ⊢
    rw [ih h hseparator]
    rfl
  | case6 => exact absurd h nofun
  | case7 arg d value args hword haccepts ih =>
    rw [List.cons_append, List.cons_append, collect_separate hword haccepts] at hseparator ⊢
    rw [ih h hseparator]
    rfl
  | case8 => exact absurd h nofun

/-- What is read is given if no option is there twice, nothing has ended the reading, and no two
options exclude each other.

**Proof sketch.** The three conditions are judged one after the other, and each that fails is an
error of its own. -/
lemma judge_eq_ok_iff {stop : Option Refusal} {res : Given} : judge given stop = .ok res ↔
    given.Pairwise (fun g g' => g.1 ≠ g'.1) ∧ stop = none ∧
      given.Pairwise (fun g g' => ¬g.1.Excludes g'.1) ∧ res = given := by
  unfold judge
  by_cases htwice : given.Pairwise fun g g' => g.1 ≠ g'.1
  · rw [if_pos htwice]
    cases stop with
    | some r => exact ⟨nofun, fun h => absurd h.2.1 nofun⟩
    | none =>
      by_cases hexcludes : given.Pairwise fun g g' => ¬g.1.Excludes g'.1
      · simp only [if_pos hexcludes, Except.ok.injEq]
        exact ⟨fun h => ⟨htwice, trivial, hexcludes, h.symm⟩, fun h => h.2.2.2.symm⟩
      · simp only [if_neg hexcludes]
        exact ⟨nofun, fun h => absurd h.2.2.1 hexcludes⟩
  · rw [if_neg htwice]
    exact ⟨nofun, fun h => absurd h.1 htwice⟩

/-- An option that is read in front of others is given with them, if it is not given there and
excludes none of them.

**Proof sketch.** What the rest gives is what was read of it, without a repetition and a conflict.
One more option in front brings neither, by what is assumed of it. -/
lemma parse_of_note {arg : List (List Char)} {rest : List (List Char)}
    (h : collect decls (arg ++ rest) = note d value (collect decls rest))
    (hrest : parse decls rest = .ok given) (hgiven : ∀ g ∈ given, d ≠ g.1 ∧ ¬d.Excludes g.1) :
    parse decls (arg ++ rest) = .ok ((d, value) :: given) := by
  obtain ⟨htwice, hstop, hexcludes, rfl⟩ := judge_eq_ok_iff.mp hrest
  have hd := fun g hg => (hgiven g hg).1
  have hd' := fun g hg => (hgiven g hg).2
  rw [parse, h]
  exact judge_eq_ok_iff.mpr ⟨List.pairwise_cons.mpr ⟨hd, htwice⟩, hstop,
    List.pairwise_cons.mpr ⟨hd', hexcludes⟩, rfl⟩

end Arguments

/-! ## The libraries of the program -/

section

variable {d : Declared} {value : List Char} {args : List (List Char)}

/-- Arguments that are read as one option give it its value. -/
lemma gives_of_note (h : ∀ rest, Arguments.collect declaredOptions (args ++ rest) =
      Arguments.note d value (Arguments.collect declaredOptions rest)) :
    libraries.Gives declaredOptions d value args :=
  fun rest _ hrest hgiven => Arguments.parse_of_note (h rest) hrest hgiven

/-- What gives an option its value is read as this option, whatever follows it.

**Proof sketch.** By themselves the arguments give this option and nothing else. So they do with a
separator behind them, and therefore they are read off the front of all others. -/
lemma collect_of_gives (h : libraries.Gives declaredOptions d value args)
    (rest : List (List Char)) : Arguments.collect declaredOptions (args ++ rest) =
      Arguments.note d value (Arguments.collect declaredOptions rest) := by
  have halone := h [] [] rfl (by simp)
  have hseparator := h [['-', '-']] [] rfl (by simp)
  rw [List.append_nil] at halone
  obtain ⟨-, hstop, -, hgiven⟩ := Arguments.judge_eq_ok_iff.mp halone
  obtain ⟨-, hstop', -⟩ := Arguments.judge_eq_ok_iff.mp hseparator
  rw [Arguments.collect_append hstop hstop', ← hgiven]
  rfl

end

/-- **The program is run with libraries as they are documented.**

**Proof sketch.** Each spelling is one argument that is read as the option, with the value attached
to it or in the next argument, whatever comes behind (`gives_of_note`). Arguments that give two
options which exclude each other are read one after the other (`collect_of_gives`), and of the two
options that were read then the pair is judged. -/
theorem documented_libraries : libraries.Documented declaredOptions where
  nothing := rfl
  short d hd letter hletter value haccepts := by
    obtain ⟨c, rfl, rfl⟩ := exists_choice_of_letter hd hletter
    exact gives_of_note (Arguments.collect_separate (Arguments.ofArg_short c []) haccepts)
  shortAttached d hd letter hletter value _ := by
    obtain ⟨c, rfl, rfl⟩ := exists_choice_of_letter hd hletter
    exact gives_of_note (Arguments.collect_attached (Arguments.ofArg_short c ('=' :: value)))
  glued d hd letter hletter value _ hnonempty hplain := by
    obtain ⟨c, rfl, rfl⟩ := exists_choice_of_letter hd hletter
    have hword := Arguments.ofArg_short c value
    rw [Arguments.attached?_glued hnonempty hplain] at hword
    exact gives_of_note (Arguments.collect_attached hword)
  long d hd value haccepts := by
    obtain ⟨c, rfl⟩ := mem_declaredOptions.mp hd
    have hword : Arguments.Word.ofArg declaredOptions ('-' :: '-' :: c.name ++ []) =
        .option c.declared none :=
      Arguments.ofArg_long (by rw [List.append_nil, Arguments.splitLong_name])
    rw [List.append_nil] at hword
    rw [Choice.name_declared]
    exact gives_of_note (Arguments.collect_separate hword haccepts)
  longAttached d hd value _ := by
    obtain ⟨c, rfl⟩ := mem_declaredOptions.mp hd
    rw [Choice.name_declared]
    exact gives_of_note (Arguments.collect_attached
      (Arguments.ofArg_long (Arguments.splitLong_attached c value)))
  conflict d _ d' _ hexcludes value value' args args' h h' := by
    have hread := collect_of_gives h' []
    rw [List.append_nil] at hread
    change Arguments.judge (Arguments.collect declaredOptions (args ++ args')).1
      (Arguments.collect declaredOptions (args ++ args')).2 = _
    rw [collect_of_gives h args', hread]
    change Arguments.judge [(d, value), (d', value')] none = _
    simp [Arguments.judge, hexcludes]
  exit_misuse r hr := by
    cases r with
    | conflict => rfl
    | incomplete => rfl
    | unknown => rfl
    | help => exact absurd hr (by decide)
    | version => exact absurd hr (by decide)

end PocketCalculator.CommandLine
