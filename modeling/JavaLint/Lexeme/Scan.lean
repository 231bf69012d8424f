import JavaLint.Error
import JavaLint.Lexeme.Number
import JavaLint.Text.Lines
import JavaLint.Text.Number
import JavaLint.Text.Search

/-!
# Cutting a text into lexemes

`Lexeme.next` looks at a text and answers the kind of the lexeme at its start, together with the
number of characters that the lexeme takes after its first one.  Always the longest lexeme wins.
`Lexeme.scan` repeats this until the text is used up; since every lexeme has a first character,
the rest gets shorter with every step.

Nothing is dropped: the texts of the lexemes, put together, are the text that was cut.
-/

namespace JavaLint.Lexeme

/-! ## Words -/

/-- A character that starts a name. -/
def startsWord (c : Char) : Bool :=
  c == '_' || c == '$' || Text.isLetter c

/-- A character that continues a name. -/
def continuesWord (c : Char) : Bool :=
  startsWord c || Text.isDecimalDigit c

/-- The kind of a word: a literal, a keyword, or an identifier. -/
def wordKind (word : String) : Kind :=
  if word = "true" || word = "false" then .boolLiteral
  else if word = "null" then .nullLiteral
  else match Keyword.ofWord? word with
    | some k => .keyword k
    | none => .identifier

/-- A word is as long as possible, but `non-sealed` is one word although it holds a hyphen. -/
def nextWord (c : Char) (cs : List Char) : Kind × Nat :=
  if "non-sealed".toList.isPrefixOf (c :: cs) then (.keyword .nonSealedKw, 9)
  else
    let tail := cs.takeWhile continuesWord
    (wordKind (String.ofList (c :: tail)), tail.length)

/-! ## Comments and quoted literals

The functions of this section look at what follows an opening delimiter and answer the number of
characters up to and including the closing one. -/

/-- A comment ends with the first `*/`. -/
def commentTail (cs : List Char) : Except LexicalCause Nat :=
  match Text.find? ['*', '/'] cs with
  | some n => .ok (n + 2)
  | none => .error .openComment

/-- The characters up to the closing quotation mark; a backslash takes the next character with
it, and neither may end the line. -/
def quotedTail (quote : Char) : List Char → Option Nat
  | [] => none
  | ['\\'] => none
  | '\\' :: c :: cs => if Text.isBreak c then none else (quotedTail quote cs).map (· + 2)
  | c :: cs =>
    if Text.isBreak c then none
    else if c = quote then some 1
    else (quotedTail quote cs).map (· + 1)

/-- A blank inside a line. -/
def isGap (c : Char) : Bool :=
  c == ' ' || c == '\t' || c == '\x0c'

/-- The characters up to three quotation marks; a backslash takes the next character with it. -/
def textBlockBody : List Char → Option Nat
  | [] => none
  | ['\\'] => none
  | '\\' :: _ :: cs => (textBlockBody cs).map (· + 2)
  | '"' :: '"' :: '"' :: _ => some 3
  | _ :: cs => (textBlockBody cs).map (· + 1)

/-- A text block starts on the line after its opening delimiter. -/
def textBlockTail (cs : List Char) : Except LexicalCause Nat :=
  if (cs.dropWhile isGap).head?.any Text.isBreak then
    match textBlockBody cs with
    | some n => .ok n
    | none => .error .openTextBlock
  else .error .textBlockOpening

/-- A quotation mark starts a text block, if two more follow, or a string literal. -/
def nextQuote (cs : List Char) : Except LexicalCause (Kind × Nat) :=
  match cs with
  | '"' :: '"' :: rest => (textBlockTail rest).map fun n => (.textBlock, n + 2)
  | _ =>
    match quotedTail '"' cs with
    | some n => .ok (.stringLiteral, n)
    | none => .error .openString

/-- An apostrophe starts a character literal. -/
def nextApostrophe (cs : List Char) : Except LexicalCause (Kind × Nat) :=
  match quotedTail '\'' cs with
  | some n => .ok (.charLiteral, n)
  | none => .error .openChar

/-! ## Separators and operators -/

/-- The fixed spellings, where no spelling comes after one of its own beginnings. -/
def symbols : List (String × Kind) :=
  [(">>>=", .urShiftAssign),
   ("...", .ellipsis), ("<<=", .lShiftAssign), (">>=", .rShiftAssign),
   ("::", .colonColon), ("->", .arrow), ("==", .equal), ("<=", .le), (">=", .ge),
   ("!=", .notEqual), ("&&", .and), ("||", .or), ("++", .inc), ("--", .dec),
   ("+=", .addAssign), ("-=", .subAssign), ("*=", .mulAssign), ("/=", .divAssign),
   ("&=", .andAssign), ("|=", .orAssign), ("^=", .xorAssign), ("%=", .modAssign),
   ("(", .lParen), (")", .rParen), ("\x7b", .lBrace), ("\x7d", .rBrace), ("[", .lBrack),
   ("]", .rBrack), (";", .semi), (",", .comma), (".", .dot), ("@", .atSign),
   ("=", .assign), (">", .gt), ("<", .lt), ("!", .bang), ("~", .tilde), ("?", .question),
   (":", .colon), ("+", .add), ("-", .sub), ("*", .mul), ("/", .div), ("&", .bitAnd),
   ("|", .bitOr), ("^", .caret), ("%", .mod)]

/-- The longest separator or operator. -/
def nextSymbol (c : Char) (cs : List Char) : Except LexicalCause (Kind × Nat) :=
  match symbols.find? fun symbol => symbol.1.toList.isPrefixOf (c :: cs) with
  | some (spelling, kind) => .ok (kind, spelling.length - 1)
  | none => .error (.unexpected c)

/-- A slash starts a comment of one of three kinds, or an operator. -/
def nextSlash (cs : List Char) : Except LexicalCause (Kind × Nat) :=
  match cs with
  | '/' :: rest => .ok (.lineComment, (rest.takeWhile fun c => !Text.isBreak c).length + 1)
  | '*' :: '*' :: '/' :: _ => .ok (.blockComment, 3)
  | '*' :: '*' :: rest => (commentTail rest).map fun n => (.docComment, n + 2)
  | '*' :: rest => (commentTail rest).map fun n => (.blockComment, n + 1)
  | _ => nextSymbol '/' cs

/-! ## One lexeme, and all of them -/

/-- The characters start a number: a digit, or a point before a digit. -/
def startsNumber (c : Char) (cs : List Char) : Bool :=
  c.isDigit || (c == '.' && cs.head?.any Char.isDigit)

/-- The kind of the lexeme that starts with `c`, and how many of the characters after `c` belong
to it. -/
def next (c : Char) (cs : List Char) : Except LexicalCause (Kind × Nat) :=
  if isGap c then .ok (.whitespace, (cs.takeWhile isGap).length)
  else if c = '\n' then .ok (.newline, 0)
  else if c = '\r' then .ok (.newline, if cs.head? = some '\n' then 1 else 0)
  else if startsWord c then .ok (nextWord c cs)
  else if startsNumber c cs then
    .ok ((Number.scan (c :: cs)).1, (Number.scan (c :: cs)).2 - 1)
  else if c = '"' then nextQuote cs
  else if c = '\'' then nextApostrophe cs
  else if c = '/' then nextSlash cs
  else nextSymbol c cs

/-- The lexemes of a text that starts at the given offset and line. -/
def scanFrom (offset line : Nat) : List Char → Except Error (List Lexeme)
  | [] => .ok []
  | c :: cs =>
    match next c cs with
    | .error cause => .error (.lexical line cause)
    | .ok (kind, n) =>
      let text := c :: cs.take n
      (scanFrom (offset + Text.byteSize text) (line + Text.breaks text) (cs.drop n)).map
        (⟨kind, String.ofList text, offset, line⟩ :: ·)
termination_by cs => cs.length
decreasing_by simp +arith

/-- The lexemes of a source text. -/
def scan (source : String) : Except Error (List Lexeme) :=
  scanFrom 0 1 source.toList

end JavaLint.Lexeme
