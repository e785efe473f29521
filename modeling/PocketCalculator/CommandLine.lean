import PocketCalculator.CommandLine.Arguments

/-!
# The command line

The program run with a parser of options of its own, where there is no display to open a window on.

## Main definitions

* `CommandLine.libraries` — what the program is run with.
* `CommandLine.run` — what it prints then and its exit code.
-/

namespace PocketCalculator.CommandLine

/-- The name and version of the program. -/
def versionText : List Char := "calculatrice_simple 0.1.0".toList

/-- How the program is called. -/
def usageText : List Char := "Usage: calculatrice_simple [OPTIONS]

Options:
  -e, --expression <EXPRESSION>  Évalue une expression, affiche le résultat et quitte (× et ÷ acceptés)
  -p, --pourcent <POURCENT>      Applique la touche % à une valeur, affiche le résultat et quitte
  -h, --help                     Print help
  -V, --version                  Print version".toList

/-- How the program ends if its arguments give no options: with the text that they ask for, or with
code 2 and nothing on the standard output. -/
def exit : Refusal → Outcome
  | .version => ⟨0, line versionText⟩
  | .help => ⟨0, line usageText⟩
  | .conflict | .incomplete | .unknown => ⟨2, []⟩

/-- What the program is run with. -/
def libraries : Libraries where
  parse := Arguments.parse
  exit := exit
  window := false

/-- The outcome of a call of the program. -/
def run (args : List (List Char)) : Outcome :=
  libraries.run args

end PocketCalculator.CommandLine
