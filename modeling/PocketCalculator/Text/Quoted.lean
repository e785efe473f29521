import PocketCalculator.Text.Combining
import PocketCalculator.Text.Ignorable
import PocketCalculator.Text.Printable

/-!
# Quoted text

A text in an error message stands between double quotes and is written so that every character of it
can be seen. Some characters have an escape of their own; combining marks, ignorable characters and
those that are not printable are given by their code points.

## Main definitions

* `Text.escaped` — one character, as it is written between quotes.
* `Text.quoted` — a text with its quotes.
-/

namespace PocketCalculator.Text

/-- A character given by its code point, in hexadecimal digits between braces. -/
def codePoint (c : Char) : List Char :=
  ['\\', 'u', '\x7b'] ++ Nat.toDigits 16 c.toNat ++ ['\x7d']

/-- A character as it is written between quotes. A single quote needs no escape there. -/
def escaped (c : Char) : List Char :=
  if c = '\x00' then ['\\', '0']
  else if c = '\t' then ['\\', 't']
  else if c = '\r' then ['\\', 'r']
  else if c = '\n' then ['\\', 'n']
  else if c = '\\' ∨ c = '"' then ['\\', c]
  else if isCombining c || isIgnorable c || !isPrintable c then codePoint c
  else [c]

/-- A text between double quotes. -/
def quoted (cs : List Char) : List Char :=
  '"' :: cs.flatMap escaped ++ ['"']

end PocketCalculator.Text
