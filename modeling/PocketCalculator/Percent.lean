import PocketCalculator.Error
import PocketCalculator.Text.Blank

/-!
# Percentages

The percent key takes a hundredth of one number. Its text is a numeral and no expression, with any
white space around it.
-/

namespace PocketCalculator

/-- A hundredth of the number that a text spells. -/
def percent (text : List Char) : Except CalcError Float :=
  match Numeral.read (Text.trim text) with
  | .ok v => .ok (v / 100)
  | .error fault => .error (.badNumber (Text.trim text) fault)

end PocketCalculator
