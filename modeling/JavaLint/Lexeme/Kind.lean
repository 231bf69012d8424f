import JavaLint.Keyword

/-!
# Kinds of lexemes

Every piece of a source text has a `Kind`.  The kind decides the channel on which the piece
travels: code, whitespace, comments and doc comments each have one, and line breaks have none.
Whatever is not code is trivia, and the grammar does not see it.
-/

namespace JavaLint

/-- The streams into which the pieces of a text are divided once line breaks are dropped. -/
inductive Channel where
  | code | whitespace | comment | docComment
deriving DecidableEq, Repr

/-- The kinds of lexemes.  There is no kind for `>>` or `>>>`, since nested type arguments close
one `>` at a time. -/
inductive Kind where
  | keyword (keyword : Keyword)
  | identifier
  | decimalLiteral | hexLiteral | octLiteral | binaryLiteral | floatLiteral | hexFloatLiteral
  | charLiteral | stringLiteral | textBlock | boolLiteral | nullLiteral
  | lParen | rParen | lBrace | rBrace | lBrack | rBrack
  | semi | comma | dot | ellipsis | atSign | colonColon
  | assign | gt | lt | bang | tilde | question | colon | arrow | equal | le | ge | notEqual
  | and | or | inc | dec | add | sub | mul | div | bitAnd | bitOr | caret | mod
  | addAssign | subAssign | mulAssign | divAssign | andAssign | orAssign | xorAssign | modAssign
  | lShiftAssign | rShiftAssign | urShiftAssign
  | whitespace | newline | lineComment | blockComment | docComment
deriving DecidableEq, Repr

namespace Kind

/-- The channel of a kind; line breaks have none. -/
def channel : Kind → Option Channel
  | whitespace => some .whitespace
  | newline => none
  | lineComment | blockComment => some .comment
  | docComment => some .docComment
  | _ => some .code

/-- Blanks, line breaks and comments. -/
def isTrivia (k : Kind) : Bool :=
  k.channel != some .code

/-- A literal of any type. -/
def isLiteral : Kind → Bool
  | decimalLiteral | hexLiteral | octLiteral | binaryLiteral | floatLiteral | hexFloatLiteral
  | charLiteral | stringLiteral | textBlock | boolLiteral | nullLiteral => true
  | _ => false

/-- An identifier, or a contextual keyword used as a name. -/
def isName : Kind → Bool
  | identifier => true
  | keyword k => k.isContextual
  | _ => false

/-- An identifier, a keyword, or one of the literals that are spelled like words. -/
def isWord : Kind → Bool
  | identifier | keyword _ | boolLiteral | nullLiteral => true
  | _ => false

/-- The name of a primitive type. -/
def isPrimitive : Kind → Bool
  | keyword k => k.isPrimitive
  | _ => false

end Kind

/-- One piece of a source text. -/
structure Lexeme where
  /-- What the piece is. -/
  kind : Kind
  /-- Its characters. -/
  text : String
  /-- The number of bytes before it. -/
  offset : Nat
  /-- The line of its first character, counted from one. -/
  line : Nat
deriving DecidableEq, Repr

namespace Lexeme

/-- The channel of a lexeme. -/
def channel (l : Lexeme) : Option Channel :=
  l.kind.channel

/-- The lexeme is invisible to the grammar. -/
def isTrivia (l : Lexeme) : Bool :=
  l.kind.isTrivia

end Lexeme

end JavaLint
