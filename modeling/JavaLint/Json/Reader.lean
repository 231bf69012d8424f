import JavaLint.Json.Basic

/-!
# Reading JSON

The strict form of the format: nothing but blanks may stand around a value, numbers have no
superfluous zeros and no lonely points, and control characters in strings have to be escaped.
Each function reads from the front of a text and answers what it read and the rest; `none` means
that the text is not in the form.
-/

namespace JavaLint.Json

/-- A blank between the parts of a value. -/
def isSpace (c : Char) : Bool :=
  c == ' ' || c == '\n' || c == '\r' || c == '\t'

/-- The text without the blanks at its start. -/
def skipSpace (cs : List Char) : List Char :=
  cs.dropWhile isSpace

/-! ## Strings -/

/-- The value of a digit of base sixteen. -/
def hexValue? (c : Char) : Option Nat :=
  if c.isDigit then some (c.toNat - '0'.toNat)
  else if 'a' ≤ c && c ≤ 'f' then some (c.toNat - 'a'.toNat + 10)
  else if 'A' ≤ c && c ≤ 'F' then some (c.toNat - 'A'.toNat + 10)
  else none

/-- The value of four digits of base sixteen. -/
def hexUnit? (a b c d : Char) : Option Nat := do
  let a ← hexValue? a
  let b ← hexValue? b
  let c ← hexValue? c
  let d ← hexValue? d
  return 4096 * a + 256 * b + 16 * c + d

/-- The first half of a surrogate pair. -/
def isHighSurrogate (n : Nat) : Bool :=
  0xD800 ≤ n && n < 0xDC00

/-- The second half of a surrogate pair. -/
def isLowSurrogate (n : Nat) : Bool :=
  0xDC00 ≤ n && n < 0xE000

/-- The character of a surrogate pair. -/
def pairChar (high low : Nat) : Char :=
  Char.ofNat (0x10000 + 0x400 * (high - 0xD800) + (low - 0xDC00))

/-- The character for a letter after a backslash. -/
def simpleEscape? (c : Char) : Option Char :=
  if c = '"' || c = '\\' || c = '/' then some c
  else if c = 'b' then some '\x08'
  else if c = 'f' then some '\x0c'
  else if c = 'n' then some '\n'
  else if c = 'r' then some '\r'
  else if c = 't' then some '\t'
  else none

/-- Puts a character in front of the contents of a string, if there are any. -/
def push (c : Char) (result : Option (List Char) × List Char) : Option (List Char) × List Char :=
  (result.1.map (c :: ·), result.2)

/-- Reads a string after its opening quotation mark.  The contents are missing if half of a
surrogate pair stands alone. -/
def readChars : List Char → Option (Option (List Char) × List Char)
  | [] => none
  | '"' :: cs => some (some [], cs)
  | '\\' :: 'u' :: a :: b :: c :: d :: '\\' :: 'u' :: a' :: b' :: c' :: d' :: cs =>
    match hexUnit? a b c d with
    | none => none
    | some unit =>
      if isHighSurrogate unit then
        match hexUnit? a' b' c' d' with
        | none => none
        | some unit' =>
          if isLowSurrogate unit' then (readChars cs).map (push (pairChar unit unit'))
          else (readChars ('\\' :: 'u' :: a' :: b' :: c' :: d' :: cs)).map fun r => (none, r.2)
      else if isLowSurrogate unit then
        (readChars ('\\' :: 'u' :: a' :: b' :: c' :: d' :: cs)).map fun r => (none, r.2)
      else
        (readChars ('\\' :: 'u' :: a' :: b' :: c' :: d' :: cs)).map (push (Char.ofNat unit))
  | '\\' :: 'u' :: a :: b :: c :: d :: cs =>
    match hexUnit? a b c d with
    | none => none
    | some unit =>
      if isHighSurrogate unit || isLowSurrogate unit then
        (readChars cs).map fun r => (none, r.2)
      else (readChars cs).map (push (Char.ofNat unit))
  | '\\' :: c :: cs =>
    match simpleEscape? c with
    | none => none
    | some c => (readChars cs).map (push c)
  | c :: cs =>
    if c.toNat < 32 || c = '\\' then none else (readChars cs).map (push c)

/-! ## Numbers -/

/-- The digits at the start. -/
def takeDigits (cs : List Char) : List Char × List Char :=
  (cs.takeWhile Char.isDigit, cs.dropWhile Char.isDigit)

/-- A whole number without superfluous zeros. -/
def readWhole : List Char → Option (List Char × List Char)
  | '0' :: cs => if cs.head?.any Char.isDigit then none else some (['0'], cs)
  | cs =>
    match takeDigits cs with
    | ([], _) => none
    | found => some found

/-- A point and digits, or nothing. -/
def readFraction : List Char → Option (List Char × List Char)
  | '.' :: cs =>
    match takeDigits cs with
    | ([], _) => none
    | (ds, rest) => some ('.' :: ds, rest)
  | cs => some ([], cs)

/-- A sign, or nothing. -/
def readSign : List Char → List Char × List Char
  | '+' :: cs => (['+'], cs)
  | '-' :: cs => (['-'], cs)
  | cs => ([], cs)

/-- An exponent, or nothing. -/
def readExponent : List Char → Option (List Char × List Char)
  | c :: cs =>
    if c = 'e' || c = 'E' then
      match takeDigits (readSign cs).2 with
      | ([], _) => none
      | (ds, rest) => some (c :: (readSign cs).1 ++ ds, rest)
    else some ([], c :: cs)
  | [] => some ([], [])

/-- A number without its sign. -/
def readUnsigned (cs : List Char) : Option (List Char × List Char) := do
  let (whole, cs) ← readWhole cs
  let (fraction, cs) ← readFraction cs
  let (exponent, cs) ← readExponent cs
  return (whole ++ fraction ++ exponent, cs)

/-- A number. -/
def readNumber : List Char → Option (List Char × List Char)
  | '-' :: cs => (readUnsigned cs).map fun r => ('-' :: r.1, r.2)
  | cs => readUnsigned cs

/-! ## Values -/

/-- The string with the given contents, which may be missing. -/
def ofChars : Option (List Char) → Json
  | some text => .string (String.ofList text)
  | none => .garbled

/-- The object with the given members, which may be missing. -/
def ofMembers : Option (List (String × Json)) → Json
  | some members => .object members
  | none => .garbled

/-- Puts a member in front of others, unless its key or the others are missing. -/
def addMember (key : Option (List Char)) (value : Json) (members : Option (List (String × Json))) :
    Option (List (String × Json)) :=
  match key, members with
  | some key, some members => some ((String.ofList key, value) :: members)
  | _, _ => none

mutual

/-- Reads a value, whose parts lie at most `fuel` deep and far. -/
def readValue : Nat → List Char → Option (Json × List Char)
  | 0, _ => none
  | fuel + 1, cs =>
    match skipSpace cs with
    | '"' :: cs => (readChars cs).map fun r => (ofChars r.1, r.2)
    | '[' :: cs =>
      match skipSpace cs with
      | ']' :: cs => some (.array [], cs)
      | cs => (readItems fuel cs).map fun r => (.array r.1, r.2)
    | '\x7b' :: cs =>
      match skipSpace cs with
      | '\x7d' :: cs => some (.object [], cs)
      | cs => (readMembers fuel cs).map fun r => (ofMembers r.1, r.2)
    | 't' :: 'r' :: 'u' :: 'e' :: cs => some (.bool true, cs)
    | 'f' :: 'a' :: 'l' :: 's' :: 'e' :: cs => some (.bool false, cs)
    | 'n' :: 'u' :: 'l' :: 'l' :: cs => some (.null, cs)
    | cs => (readNumber cs).map fun r => (.number (String.ofList r.1), r.2)

/-- Reads the items of an array up to its closing bracket. -/
def readItems : Nat → List Char → Option (List Json × List Char)
  | 0, _ => none
  | fuel + 1, cs => do
    let (item, cs) ← readValue fuel cs
    match skipSpace cs with
    | ']' :: cs => return ([item], cs)
    | ',' :: cs =>
      let (items, cs) ← readItems fuel cs
      return (item :: items, cs)
    | _ => none

/-- Reads the members of an object up to its closing brace.  The members are missing if a key has
no contents. -/
def readMembers : Nat → List Char → Option (Option (List (String × Json)) × List Char)
  | 0, _ => none
  | fuel + 1, cs => do
    let '"' :: cs := skipSpace cs | none
    let (key, cs) ← readChars cs
    let ':' :: cs := skipSpace cs | none
    let (value, cs) ← readValue fuel cs
    match skipSpace cs with
    | '\x7d' :: cs => return (addMember key value (some []), cs)
    | ',' :: cs =>
      let (members, cs) ← readMembers fuel cs
      return (addMember key value members, cs)
    | _ => none

end

/-- The value that a text spells. -/
def read? (text : String) : Option Json :=
  match readValue (2 * text.length + 2) text.toList with
  | some (value, rest) => if (skipSpace rest).isEmpty then some value else none
  | none => none

end JavaLint.Json
