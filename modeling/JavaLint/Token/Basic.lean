import JavaLint.Text.Lines
import JavaLint.Token.Role

/-!
# Tokens

A token is a lexeme with a channel, placed on its line: it knows its visual column, its place
among the tokens of the line, and its number in the file.
-/

namespace JavaLint

/-- A lexeme that has a channel, with its place. -/
structure Token where
  /-- What the lexeme is. -/
  kind : Kind
  /-- Its characters. -/
  text : String
  /-- The line of its first character, counted from one. -/
  line : Nat
  /-- The visual column of its first character, counted from zero. -/
  column : Nat
  /-- Its place among the tokens of its line, counted from zero. -/
  place : Nat
  /-- The room that it takes on its first line. -/
  width : Nat
  /-- Its number in the file, counted from zero. -/
  number : Nat
deriving DecidableEq, Repr

/-- The room of a text on its first line; in whitespace, only blanks take room. -/
def visualWidth (text : String) (channel : Channel) (column : Nat) : Nat :=
  Text.width (if channel = .whitespace then 0 else 1) column text.toList

namespace Token

/-- The channel of a token. -/
def channel (t : Token) : Channel :=
  t.kind.channel.getD .code

/-- The token is whitespace. -/
def isSpace (t : Token) : Bool :=
  t.channel = .whitespace

/-- The token is code. -/
def isCode (t : Token) : Bool :=
  t.channel = .code

/-- The column after the token. -/
def endColumn (t : Token) : Nat :=
  t.column + t.width

end Token

end JavaLint
