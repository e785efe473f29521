import PocketCalculator.Binary64.Nearest

/-!
# Decimal numbers

An unsigned decimal number is a coefficient and a power of ten. It keeps its exact value whatever
its length; a double comes in only when it is rounded.

## Main definitions

* `Decimal` — a coefficient times a power of ten.
* `Decimal.magnitude`, `Decimal.toFloat` — the double nearest to it.
* `Decimal.ofText?` — the decimal number that a text spells.
-/

namespace PocketCalculator

/-- The number `coefficient * 10 ^ exponent`. -/
structure Decimal where
  /-- The digits, read as one integer. -/
  coefficient : Nat
  /-- The power of ten that the coefficient is multiplied by. -/
  exponent : Int
deriving DecidableEq, Repr

namespace Decimal

-- Powers of natural numbers are the ones of the core library, whatever else is imported.
attribute [local instance (2000)] instPowNat

/-- The magnitude of the double nearest to a decimal number. -/
def magnitude (d : Decimal) : Nat :=
  Binary64.nearest (d.coefficient * 10 ^ d.exponent.toNat) (10 ^ (-d.exponent).toNat)

/-- The double nearest to a decimal number. -/
def toFloat (d : Decimal) : Float :=
  Binary64.ofMagnitude false d.magnitude

/-- A decimal number is never rounded to a NaN. -/
theorem magnitude_le_infinity (d : Decimal) : d.magnitude ≤ Binary64.infinity :=
  Binary64.nearest_le_infinity _ _

/-! ## Reading -/

/-- The digits before and after an optional point, and what follows them. -/
def splitMantissa (cs : List Char) : List Char × List Char × List Char :=
  match cs.dropWhile Char.isDigit with
  | '.' :: rest =>
    (cs.takeWhile Char.isDigit, rest.takeWhile Char.isDigit, rest.dropWhile Char.isDigit)
  | rest => (cs.takeWhile Char.isDigit, [], rest)

/-- The number that the digits of an exponent spell. Once it has reached `65536` further digits are
not counted, so that it stays small however many there are. -/
def readDigits? (cs : List Char) : Option Nat :=
  if cs.isEmpty || !cs.all Char.isDigit then none
  else some (cs.foldl (fun n c => if n < 65536 then 10 * n + (c.toNat - '0'.toNat) else n) 0)

/-- The exponent that a text spells: an optional sign and at least one digit. -/
def readExponent? : List Char → Option Int
  | '-' :: cs => (readDigits? cs).map fun n => -(n : Int)
  | '+' :: cs => (readDigits? cs).map fun n => (n : Int)
  | cs => (readDigits? cs).map fun n => (n : Int)

/-- The power of ten that the text after a mantissa spells: nothing, or `e` or `E` and an
exponent. -/
def readScale? : List Char → Option Int
  | [] => some 0
  | c :: cs => if c = 'e' ∨ c = 'E' then readExponent? cs else none

/-- The unsigned decimal number that a text spells: at least one digit, with at most one point
among or beside the digits, and possibly an exponent after them. -/
def ofText? (cs : List Char) : Option Decimal :=
  let (whole, fraction, rest) := splitMantissa cs
  if whole.isEmpty && fraction.isEmpty then none
  else (readScale? rest).map fun e =>
    ⟨Nat.ofDigitChars 10 (whole ++ fraction) 0, e - (fraction.length : Int)⟩

end Decimal

end PocketCalculator
