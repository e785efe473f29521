/-!
# Blank characters

The characters of the Unicode property `White_Space`, and texts without any at their two ends.

## Main definitions

* `Text.isBlank` — whether a character is white space.
* `Text.trim` — a text without the white space around it.
-/

namespace PocketCalculator.Text

/-- Whether a character has the property `White_Space`: the controls from tab to carriage return and
next line, the spaces of all widths, and the line and paragraph separators. -/
def isBlank (c : Char) : Bool :=
  let n := c.toNat
  (9 ≤ n && n ≤ 13) || n == 0x20 || n == 0x85 || n == 0xA0 || n == 0x1680 ||
    (0x2000 ≤ n && n ≤ 0x200A) || n == 0x2028 || n == 0x2029 || n == 0x202F || n == 0x205F ||
    n == 0x3000

/-- A text without the white space at its beginning and its end. -/
def trim (cs : List Char) : List Char :=
  ((cs.dropWhile isBlank).reverse.dropWhile isBlank).reverse

end PocketCalculator.Text
