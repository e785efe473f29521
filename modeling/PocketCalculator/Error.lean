import PocketCalculator.Numeral
import PocketCalculator.Text.Quoted

/-!
# Refused calculations

A calculation that cannot be done says why. Results that leave the range of the doubles or that are
not numbers are no errors.

## Main definitions

* `CalcError` — the causes.
* `CalcError.message` — their wording.
-/

namespace PocketCalculator

/-- Why a calculation was refused. -/
inductive CalcError
  /-- A character that no expression can have in its place, or the end of the text. -/
  | unexpected (found : Option Char)
  /-- A text that stands where a number has to and is none. -/
  | badNumber (text : List Char) (fault : NumeralFault)
  /-- Signs and parentheses nested deeper than the limit. -/
  | tooDeep (limit : Nat)
deriving DecidableEq, Repr

namespace CalcError

/-- What was found in place of an operand or of the end of the text. -/
def foundText : Option Char → List Char
  | some c => [c]
  | none => "end of input".toList

/-- The wording of an error. -/
def message : CalcError → List Char
  | unexpected found => "Unexpected: ".toList ++ foundText found
  | badNumber text _ => "nombre invalide: ".toList ++ Text.quoted text
  | tooDeep limit => "imbrication trop profonde (max ".toList ++ Nat.toDigits 10 limit ++ [')']

end CalcError

end PocketCalculator
