/-!
# Line breaks and visual columns

A line ends at `\n`, at `\r`, or at `\r\n`, which is one break and not two.  Columns are visual:
a tab goes to the next multiple of four, a form feed takes no room, and every other character
takes one column.  `breaks` counts the lines that a text ends, and `width` measures what a text
adds to the line on which it starts.
-/

namespace JavaLint.Text

/-- One of the two characters that end a line. -/
def isBreak (c : Char) : Bool :=
  c == '\n' || c == '\r'

/-- The number of line breaks in a text; `\r\n` counts once. -/
def breaks : List Char → Nat
  | [] => 0
  | '\r' :: '\n' :: cs => breaks cs + 1
  | c :: cs => if isBreak c then breaks cs + 1 else breaks cs

/-- The distance between two tab stops. -/
def tabWidth : Nat := 4

/-- The room that a character takes at a column, where `other` is the room of a character that is
neither a space, nor a tab, nor a form feed. -/
def charWidth (other column : Nat) (c : Char) : Nat :=
  if c = ' ' then 1
  else if c = '\t' then tabWidth - column % tabWidth
  else if c = '\x0c' then 0
  else other

/-- The room that a text takes on the line where it starts, if it starts at the given column. -/
def width (other : Nat) : Nat → List Char → Nat
  | _, [] => 0
  | column, c :: cs =>
    if isBreak c then 0
    else charWidth other column c + width other (column + charWidth other column c) cs

/-- What stands after the last line break. -/
def lastLine (cs : List Char) : List Char :=
  (cs.reverse.takeWhile fun c => !isBreak c).reverse

/-- The size of a text in bytes of UTF-8. -/
def byteSize : List Char → Nat
  | [] => 0
  | c :: cs => c.utf8Size + byteSize cs

end JavaLint.Text
