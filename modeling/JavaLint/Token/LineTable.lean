import JavaLint.Error
import JavaLint.Token.Basic

/-!
# The tokens of a file by lines

A `LineTable` holds the tokens of a file twice, in one row and line by line, so that neighbours
can be found across empty lines.  It is made by going once over the lexemes.  A token that spans
several lines stands on its first line; on its last line the next token starts at the column where
the long token ends.

A lexeme without a channel or without characters makes no token.  A lexeme whose line comes before
that of the lexeme before it stays on the line that is being filled.
-/

namespace JavaLint

/-- A line with the range of its tokens; `stop` is the number after the last one. -/
structure Line where
  number : Nat
  start : Nat
  stop : Nat
deriving DecidableEq, Repr

/-- The tokens of a file. -/
structure LineTable where
  /-- All tokens in order. -/
  tokens : Array Token
  /-- The tokens of each line. -/
  rows : Array (Array Token)
  /-- For each line the column at which a token of an earlier line ends on it, or zero. -/
  carried : Array Nat
  /-- For each lexeme the number of its token, if it has one. -/
  byLexeme : Array (Option Nat)
deriving Repr

namespace LineTable

/-! ## Filling the table -/

/-- A table that is being filled: the finished part, and the line at hand. -/
structure Filling where
  /-- The finished lines, and all tokens. -/
  table : LineTable := ⟨#[], #[], #[], #[]⟩
  /-- The tokens of the line at hand. -/
  row : Array Token := #[]
  /-- The number of the line at hand. -/
  line : Nat := 1
  /-- The column for the next token. -/
  column : Nat := 0
  /-- The column at which the line at hand started. -/
  lineStart : Nat := 0
  /-- The line and the column at which the last token of several lines ends. -/
  resume : Option (Nat × Nat) := none

namespace Filling

/-- The column at which a line starts. -/
def startColumn (f : Filling) (line : Nat) : Nat :=
  match f.resume with
  | some (l, column) => if l = line then column else 0
  | none => 0

/-- Finishes the line at hand. -/
def breakLine (f : Filling) : Filling :=
  let column := f.startColumn (f.line + 1)
  { f with
    table := { f.table with
      rows := f.table.rows.push f.row
      carried := f.table.carried.push f.lineStart }
    row := #[]
    line := f.line + 1
    column := column
    lineStart := column }

/-- Finishes so many lines. -/
def breakLines : Nat → Filling → Filling
  | 0, f => f
  | n + 1, f => breakLines n f.breakLine

/-- Notes that a lexeme has no token. -/
def skip (f : Filling) : Filling :=
  { f with table := { f.table with byLexeme := f.table.byLexeme.push none } }

/-- The token of a lexeme at the next place. -/
def place (f : Filling) (l : Lexeme) (channel : Channel) : Token where
  kind := l.kind
  text := l.text
  line := l.line
  column := f.column
  place := f.row.size
  width := visualWidth l.text channel f.column
  number := f.table.tokens.size

/-- The end of a lexeme, if it lies on a later line. -/
def resumeAfter (l : Lexeme) (channel : Channel) : Option (Nat × Nat) :=
  let breaks := Text.breaks l.text.toList
  if breaks = 0 then none
  else some (l.line + breaks,
    visualWidth (String.ofList (Text.lastLine l.text.toList)) channel 0)

/-- Puts the token of a lexeme at the next place. -/
def put (f : Filling) (l : Lexeme) (channel : Channel) : Filling :=
  let token := f.place l channel
  { f with
    table := { f.table with
      tokens := f.table.tokens.push token
      byLexeme := f.table.byLexeme.push (some token.number) }
    row := f.row.push token
    column := token.endColumn
    resume := (resumeAfter l channel).or f.resume }

/-- Takes in the next lexeme. -/
def add (f : Filling) (l : Lexeme) : Filling :=
  match l.channel with
  | none => f.skip
  | some channel =>
    if l.text.isEmpty then f.skip
    else (f.breakLines (l.line - f.line)).put l channel

/-- The table, once all lexemes are taken in. -/
def finish (f : Filling) : LineTable :=
  f.breakLine.table

end Filling

/-- The table of a sequence of lexemes. -/
def ofLexemes (lexemes : List Lexeme) : LineTable :=
  (lexemes.foldl Filling.add {}).finish

/-! ## Looking things up -/

/-- The number of tokens. -/
def count (t : LineTable) : Nat :=
  t.tokens.size

/-- The token with a number. -/
def token (t : LineTable) (number : Nat) : Except Error Token :=
  match t.tokens[number]? with
  | some token => .ok token
  | none => .error (.outOfRange number t.count)

/-- The tokens of a line; there are none if there is no such line. -/
def lineTokens (t : LineTable) : Nat → Array Token
  | 0 => #[]
  | n + 1 => (t.rows[n]?).getD #[]

/-- The token at a place of a line. -/
def atPlace? (t : LineTable) (line place : Nat) : Option Token :=
  (t.lineTokens line)[place]?

/-- The token before a place of a line, also over empty lines. -/
def before? (t : LineTable) (line place : Nat) : Option Token :=
  match line, place with
  | 0, _ => none
  | _, place + 1 => t.atPlace? line place
  | row + 1, 0 =>
    if row ≤ t.rows.size then (t.rows.toList.take row).reverse.findSome? Array.back? else none

/-- The token after a place of a line, also over empty lines. -/
def after? (t : LineTable) (line place : Nat) : Option Token :=
  match line with
  | 0 => none
  | row + 1 =>
    if row < t.rows.size then
      (t.atPlace? line (place + 1)).or
        ((t.rows.toList.drop (row + 1)).findSome? fun tokens => tokens[0]?)
    else none

/-- The token before a token. -/
def prev? (t : LineTable) (token : Token) : Option Token :=
  t.before? token.line token.place

/-- The token after a token. -/
def next? (t : LineTable) (token : Token) : Option Token :=
  t.after? token.line token.place

/-- The lines from the given row on, whose first token has the given number. -/
def linesFrom (number start : Nat) : List (Array Token) → List Line
  | [] => []
  | row :: rows => ⟨number, start, start + row.size⟩ :: linesFrom (number + 1) (start + row.size) rows

/-- All lines with the ranges of their tokens. -/
def lines (t : LineTable) : List Line :=
  linesFrom 1 0 t.rows.toList

/-- The line with a number. -/
def line? (t : LineTable) : Nat → Option Line
  | 0 => none
  | n + 1 => t.lines[n]?

/-- The column after the last character of a line, also if only a token of an earlier line reaches
into it. -/
def lineWidth (t : LineTable) (line : Nat) : Nat :=
  match (t.lineTokens line).back? with
  | some last => last.endColumn
  | none =>
    match line with
    | 0 => 0
    | row + 1 => (t.carried[row]?).getD 0

/-- The numbers of the doc comments. -/
def docComments (t : LineTable) : List Nat :=
  (t.tokens.toList.filter fun token => token.kind = .docComment).map Token.number

/-- The number of the token of a lexeme. -/
def ofLexeme? (t : LineTable) (n : Nat) : Option Nat :=
  (t.byLexeme[n]?).getD none

/-- The first code token after the token with a number. -/
def nextCode? (t : LineTable) (number : Nat) : Option Token :=
  (t.tokens.toList.drop (number + 1)).find? Token.isCode

end LineTable

end JavaLint
