/-!
# Tokens

The tokens of an expression are its numbers, operators and parentheses. A number is as long a run
of digits and points as there is; whether it spells a number is not decided here. Spaces separate
tokens and are dropped, and only the plain space is one. Every other character is a token of its
own, so that each text has tokens.

## Main definitions

* `Token` — one token.
* `Token.scan` — the tokens of a text.
-/

namespace PocketCalculator

/-- A token of an expression. -/
inductive Token
  /-- A run of digits and points, which is never empty. -/
  | number (first : Char) (more : List Char)
  | plus
  | minus
  | times
  | divide
  | openParen
  | closeParen
  /-- A character that no expression has. -/
  | stray (c : Char)
deriving DecidableEq, Repr

namespace Token

/-- Whether a character belongs into a number. -/
def isNumeric (c : Char) : Bool :=
  c.isDigit || c == '.'

/-- The token of a character outside numbers. -/
def ofSymbol (c : Char) : Token :=
  match c with
  | '+' => plus
  | '-' => minus
  | '*' => times
  | '/' => divide
  | '(' => openParen
  | ')' => closeParen
  | c => stray c

/-- The first character of a token. -/
def first : Token → Char
  | number c _ => c
  | plus => '+'
  | minus => '-'
  | times => '*'
  | divide => '/'
  | openParen => '('
  | closeParen => ')'
  | stray c => c

/-- The token of a character begins with it. -/
theorem first_ofSymbol (c : Char) : (ofSymbol c).first = c := by
  unfold ofSymbol
  split <;> rfl

/-- The tokens of a text. -/
def scan : List Char → List Token
  | [] => []
  | c :: cs =>
    if c = ' ' then scan cs
    else if isNumeric c then number c (cs.takeWhile isNumeric) :: scan (cs.dropWhile isNumeric)
    else ofSymbol c :: scan cs
termination_by cs => cs.length
decreasing_by
  all_goals
    have := (List.dropWhile_sublist isNumeric (l := cs)).length_le
    simp only [List.length_cons]
    omega

/-! ## Equations -/

/-- The empty text has no tokens. -/
@[simp]
theorem scan_nil : scan [] = [] := by
  simp [scan]

/-- A space has no token. -/
@[simp]
theorem scan_space (cs : List Char) : scan (' ' :: cs) = scan cs := by
  rw [scan]
  simp

/-- A number goes as far as it can. -/
theorem scan_numeric {c : Char} (h : isNumeric c = true) (cs : List Char) :
    scan (c :: cs) = number c (cs.takeWhile isNumeric) :: scan (cs.dropWhile isNumeric) := by
  have : c ≠ ' ' := by
    rintro rfl
    simp [isNumeric] at h
  rw [scan, if_neg this, if_pos h]

/-- Any other character is a token by itself. -/
theorem scan_symbol {c : Char} (h : isNumeric c = false) (hc : c ≠ ' ') (cs : List Char) :
    scan (c :: cs) = ofSymbol c :: scan cs := by
  rw [scan, if_neg hc, if_neg (by simp [h])]

end Token

end PocketCalculator
