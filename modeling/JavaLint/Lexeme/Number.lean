import JavaLint.Lexeme.Kind
import JavaLint.Text.Alphabetic

/-!
# Number literals

A number literal starts with a digit, or with a point before a digit.  Each function here answers
how many of the next characters belong to the literal; `Number.scan` puts them together and names
the kind.  Underscores may stand anywhere in a run of digits.
-/

namespace JavaLint.Number

/-- The length of the run of digits, with underscores, at the start. -/
def digits (isDigit : Char → Bool) (cs : List Char) : Nat :=
  (cs.takeWhile fun c => isDigit c || c == '_').length

/-- One if the first character is among the given ones, else zero. -/
def oneOf (choices : List Char) : List Char → Nat
  | [] => 0
  | c :: _ => if choices.contains c then 1 else 0

/-- The length of an exponent: a marker, an optional sign and digits, the first of them a proper
digit. -/
def exponent (markers : List Char) : List Char → Nat
  | [] => 0
  | m :: cs =>
    let sign := oneOf ['+', '-'] cs
    match cs.drop sign with
    | [] => 0
    | d :: ds =>
      if markers.contains m && d.isDigit then 1 + sign + digits Char.isDigit (d :: ds) else 0

/-- A digit of base sixteen. -/
def isHexDigit (c : Char) : Bool :=
  c.isDigit || ('a' ≤ c && c ≤ 'f') || ('A' ≤ c && c ≤ 'F')

/-- A digit of base two. -/
def isBinaryDigit (c : Char) : Bool :=
  c == '0' || c == '1'

/-- A character that can start a name, for the question whether a point belongs to the number
before it. -/
def startsName (c : Char) : Bool :=
  Text.isAlphabetic c || c == '_' || c == '$'

/-- The length of a fraction after decimal digits: a point with digits, or a point alone unless a
name or another point follows. -/
def fraction : List Char → Nat
  | '.' :: c :: cs =>
    if c.isDigit then 1 + digits Char.isDigit (c :: cs)
    else if startsName c || c == '.' then 0
    else 1
  | ['.'] => 1
  | _ => 0

/-- The length of a fraction after hexadecimal digits: a point and any digits. -/
def hexFraction : List Char → Nat
  | '.' :: cs => 1 + digits isHexDigit cs
  | _ => 0

/-- What follows `0x`. -/
def scanHex (cs : List Char) : Kind × Nat :=
  let whole := digits isHexDigit cs
  let part := hexFraction (cs.drop whole)
  let power := exponent ['p', 'P'] (cs.drop (whole + part))
  let size := whole + part + power
  if part + power = 0 then (.hexLiteral, size + oneOf ['l', 'L'] (cs.drop size))
  else (.hexFloatLiteral, size + oneOf ['f', 'F', 'd', 'D'] (cs.drop size))

/-- What follows `0b`. -/
def scanBinary (cs : List Char) : Kind × Nat :=
  let whole := digits isBinaryDigit cs
  (.binaryLiteral, whole + oneOf ['l', 'L'] (cs.drop whole))

/-- A decimal or octal literal, or a floating point literal. -/
def scanDecimal (cs : List Char) : Kind × Nat :=
  let whole := digits Char.isDigit cs
  let part := fraction (cs.drop whole)
  let power := exponent ['e', 'E'] (cs.drop (whole + part))
  let size := whole + part + power
  if oneOf ['f', 'F', 'd', 'D'] (cs.drop size) = 1 then (.floatLiteral, size + 1)
  else if part + power ≠ 0 then (.floatLiteral, size)
  else
    let kind := if cs.head? = some '0' && 1 < size then .octLiteral else .decimalLiteral
    (kind, size + oneOf ['l', 'L'] (cs.drop size))

/-- The kind and the length of the number literal at the start of a text. -/
def scan : List Char → Kind × Nat
  | '0' :: m :: cs =>
    if m = 'x' || m = 'X' then ((scanHex cs).1, 2 + (scanHex cs).2)
    else if m = 'b' || m = 'B' then ((scanBinary cs).1, 2 + (scanBinary cs).2)
    else scanDecimal ('0' :: m :: cs)
  | cs => scanDecimal cs

end JavaLint.Number
