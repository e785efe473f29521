import PocketCalculator.CommandLine.Program

/-!
# Options among arguments

A parser of options to run the program with. Arguments are taken from left to right. An option is
given by its name or its letter, and its value is the next argument or is attached to the option.
The first argument that is no option settles the matter, and so does an option that is given a
second time; whether options exclude each other is seen at the end.

## Main definitions

* `Arguments.Word` — the meaning of one argument.
* `Arguments.collect` — the options that are read from the arguments, and what ends the reading.
* `Arguments.parse` — the options that the arguments give.
-/

namespace PocketCalculator.CommandLine.Arguments

/-! ## One argument -/

/-- One argument where an option may stand. -/
inductive Word
  /-- An option with a value, attached or still to come. -/
  | option (d : Declared) (value : Option (List Char))
  /-- An argument that ends the reading. -/
  | refused (r : Refusal)
  /-- The end of the options. -/
  | separator
deriving DecidableEq, Repr

/-- A long option cut at its first equals sign: its name, and the value attached to it if there is
such a sign. -/
def splitLong (cs : List Char) : List Char × Option (List Char) :=
  match cs.dropWhile (· != '=') with
  | _ :: value => (cs.takeWhile (· != '='), some value)
  | [] => (cs, none)

/-- The value attached to an option of one letter: what follows it, less one equals sign. -/
def attached? : List Char → Option (List Char)
  | [] => none
  | '=' :: value => some value
  | value => some value

variable (decls : List Declared)

/-- The meaning of a long option. Names cannot be abbreviated. -/
def Word.ofLong (name : List Char) (value : Option (List Char)) : Word :=
  match decls.find? (·.name = name) with
  | some d => option d value
  | none =>
    if value.isSome then refused .unknown
    else if name = "version".toList then refused .version
    else if name = "help".toList then refused .help
    else refused .unknown

/-- The meaning of an option of one letter and of what is attached to it. -/
def Word.ofShort (letter : Char) (cs : List Char) : Word :=
  match decls.find? (·.letter? = some letter) with
  | some d => option d (attached? cs)
  | none =>
    if letter = 'V' then refused .version
    else if letter = 'h' then refused .help
    else refused .unknown

/-- The meaning of one argument where an option may stand. -/
def Word.ofArg : List Char → Word
  | ['-', '-'] => separator
  | '-' :: '-' :: cs => ofLong decls (splitLong cs).1 (splitLong cs).2
  | '-' :: c :: cs => ofShort decls c cs
  | _ => refused .unknown

/-! ## All arguments -/

/-- What has been read, with one option more at its front. -/
def note (d : Declared) (value : List Char) :
    Given × Option Refusal → Given × Option Refusal
  | (given, stop) => ((d, value) :: given, stop)

/-- The options that are read from the arguments, up to what ends the reading if anything does. -/
def collect : List (List Char) → Given × Option Refusal
  | [] => ([], none)
  | arg :: args =>
    match Word.ofArg decls arg, args with
    | .separator, [] => ([], none)
    | .separator, _ :: _ => ([], some .unknown)
    | .refused r, _ => ([], some r)
    | .option d (some value), args => note d value (collect args)
    | .option _ none, [] => ([], some .incomplete)
    | .option d none, value :: args =>
      if d.Accepts value then note d value (collect args) else ([], some .incomplete)

/-- What options come to that were read up to some end. -/
def judge (given : Given) (stop : Option Refusal) : Except Refusal Given :=
  if given.Pairwise fun g g' => g.1 ≠ g'.1 then
    match stop with
    | some r => .error r
    | none =>
      if given.Pairwise fun g g' => ¬g.1.Excludes g'.1 then .ok given else .error .conflict
  else .error .conflict

/-- The options that the arguments give. -/
def parse (args : List (List Char)) : Except Refusal Given :=
  judge (collect decls args).1 (collect decls args).2

end PocketCalculator.CommandLine.Arguments
