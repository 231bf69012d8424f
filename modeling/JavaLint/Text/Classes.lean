/-!
# Classes of characters

The character classes of the Unicode standard are kept as lists of closed ranges of code points,
in increasing order.  Every class decides the characters of ASCII by a formula and asks its list
only beyond them, so that reasoning about ASCII never meets a table.

The class with the shortest list is here: blanks, which are the property `White_Space`.
-/

namespace JavaLint.Text

/-- The code point of the character lies in one of the closed ranges. -/
def inRanges (ranges : List (Nat × Nat)) (c : Char) : Bool :=
  ranges.any fun range => range.1 ≤ c.toNat && c.toNat ≤ range.2

/-- A character of ASCII, that is below code point 128. -/
def isAscii (c : Char) : Bool :=
  c.toNat < 128

/-! ## Blanks -/

/-- The blanks beyond ASCII. -/
def blankRanges : List (Nat × Nat) :=
  [(0x85, 0x85), (0xA0, 0xA0), (0x1680, 0x1680), (0x2000, 0x200A), (0x2028, 0x2029),
   (0x202F, 0x202F), (0x205F, 0x205F), (0x3000, 0x3000)]

/-- A blank: a space, a tab, a character that ends a line, and their relatives in Unicode. -/
def isBlank (c : Char) : Bool :=
  if isAscii c then c == ' ' || (9 ≤ c.toNat && c.toNat ≤ 13) else inRanges blankRanges c

/-- The text without the blanks at its start. -/
def trimStart (cs : List Char) : List Char :=
  cs.dropWhile isBlank

/-- The text without the blanks at its end. -/
def trimEnd (cs : List Char) : List Char :=
  (cs.reverse.dropWhile isBlank).reverse

/-- The text without the blanks at its two ends. -/
def trim (cs : List Char) : List Char :=
  trimEnd (trimStart cs)

end JavaLint.Text
