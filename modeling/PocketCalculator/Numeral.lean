import PocketCalculator.Decimal.Basic

/-!
# Numerals

A numeral is the text of one number: a decimal number, or a word for an infinite or undefined
value, with an optional sign in front. It is read as the double nearest to it.

## Main definitions

* `NumeralFault` — why a text is no numeral.
* `Numeral.read` — the double that a numeral stands for.
* `Numeral.readDecimal` — the decimal number that it spells, if it is no word and has no sign.
-/

namespace PocketCalculator

/-- Why a text is no numeral. -/
inductive NumeralFault
  /-- There is no text. -/
  | empty
  /-- There is text, and it does not spell a number. -/
  | malformed
deriving DecidableEq, Repr

/-- The wording of a fault. -/
def NumeralFault.message : NumeralFault → String
  | .empty => "cannot parse float from empty string"
  | .malformed => "invalid float literal"

namespace Numeral

-- Powers of natural numbers are the ones of the core library, whatever else is imported.
attribute [local instance (2000)] instPowNat

/-- The magnitude that a word spells, in capitals or not. -/
def word? (cs : List Char) : Option Nat :=
  let lower := cs.map Char.toLower
  if lower = "inf".toList ∨ lower = "infinity".toList then some Binary64.infinity
  else if lower = "nan".toList then some (Binary64.infinity + 2 ^ (51 : Nat))
  else none

/-- The magnitude that an unsigned numeral spells. -/
def magnitude? (cs : List Char) : Option Nat :=
  (word? cs).or ((Decimal.ofText? cs).map Decimal.magnitude)

/-- The double that a numeral spells; its sign is kept on a zero too. -/
def read? : List Char → Option Float
  | '-' :: cs => (magnitude? cs).map (Binary64.ofMagnitude true)
  | '+' :: cs => (magnitude? cs).map (Binary64.ofMagnitude false)
  | cs => (magnitude? cs).map (Binary64.ofMagnitude false)

/-- What is wrong with a text that is no numeral. -/
def fault (cs : List Char) : NumeralFault :=
  if cs.isEmpty then .empty else .malformed

/-- The double that a text spells, or what is wrong with the text. -/
def read (cs : List Char) : Except NumeralFault Float :=
  match read? cs with
  | some v => .ok v
  | none => .error (fault cs)

/-- The unsigned decimal number that a text spells, or what is wrong with the text. A numeral of
digits and points alone is read in this way, and the double is the one nearest to the decimal. -/
def readDecimal (cs : List Char) : Except NumeralFault Decimal :=
  match Decimal.ofText? cs with
  | some d => .ok d
  | none => .error (fault cs)

end Numeral

end PocketCalculator
