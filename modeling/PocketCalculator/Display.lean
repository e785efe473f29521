import PocketCalculator.Decimal.Shortest

/-!
# The text of a result

A result is written with the fewest digits that read back as it, and always with a point. Zero and
the values from 0.001 up to ten million are written plainly, as in `14.0`; others with one digit
before the point and a power of ten after a capital `E`, as in `1.5E-5`. Infinite and undefined
results are words.

## Main definitions

* `Display.plain`, `Display.scientific` — the two ways to set the point.
* `Display.exponential`, `Display.capitalized` — the steps of the second one.
* `display` — the text of a result.
-/

namespace PocketCalculator

namespace Display

/-- A digit string that is not empty. -/
def orZero (ds : List Char) : List Char :=
  if ds.isEmpty then ['0'] else ds

/-- There is a digit at least. -/
theorem orZero_ne_nil (ds : List Char) : orZero ds ≠ [] := by
  cases ds <;> simp [orZero]

/-- Digits with their point in place, and at least one digit on both sides of it. -/
def plain (ds : List Char) (point : Int) : List Char :=
  orZero ((ds.take point.toNat).rightpad point.toNat '0') ++
    '.' :: orZero (List.replicate (-point).toNat '0' ++ ds.drop point.toNat)

/-- An integer in decimal digits, with a sign only if it is negative. -/
def integer (n : Int) : List Char :=
  if n < 0 then '-' :: Nat.toDigits 10 n.natAbs else Nat.toDigits 10 n.natAbs

/-- Digits in exponential writing: the first one, the others after a point if there are any, and
after a small `e` the power of ten that this calls for. -/
def exponential (ds : List Char) (point : Int) : List Char :=
  ds.take 1 ++ (if (ds.drop 1).isEmpty then [] else '.' :: ds.drop 1) ++ 'e' :: integer (point - 1)

/-- A significand with a point in it, and with a zero after the point if it had none. -/
def pointed (significand : List Char) : List Char :=
  if significand.contains '.' then significand else significand ++ ['.', '0']

/-- An exponential text as the screen shows it. It is cut at its `e`, the significand gets a point
if it has none, and the mark of the power of ten becomes a capital one. -/
def capitalized (text : List Char) : List Char :=
  match text.dropWhile (· != 'e') with
  | [] => text
  | _ :: exponent => pointed (text.takeWhile (· != 'e')) ++ 'E' :: exponent

/-- Digits with the point after the first one, and the power of ten that this calls for. -/
def scientific (ds : List Char) (point : Int) : List Char :=
  capitalized (exponential ds point)

/-- The least magnitude written plainly, zero apart: that of 0.001. -/
def plainFrom : Nat := Binary64.nearest 1 1000

/-- The magnitude from which on nothing is written plainly: that of ten million. -/
def plainBelow : Nat := Binary64.nearest 10000000 1

/-- The text of a magnitude that is not NaN. -/
def magnitudeText (b : Nat) : List Char :=
  if b = Binary64.infinity then "Infinity".toList
  else
    let d := Decimal.shortest b
    if b = 0 ∨ (plainFrom ≤ b ∧ b < plainBelow) then plain d.digits d.point
    else scientific d.digits d.point

end Display

/-- The text of a result. -/
def display (v : Float) : List Char :=
  if Binary64.isNaN v then "NaN".toList
  else if Binary64.negative v then '-' :: Display.magnitudeText (Binary64.magnitude v)
  else Display.magnitudeText (Binary64.magnitude v)

end PocketCalculator
