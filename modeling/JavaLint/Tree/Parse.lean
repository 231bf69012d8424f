import JavaLint.Error
import JavaLint.Grammar.Java
import JavaLint.Lexeme.Scan
import JavaLint.Tree.Weave

/-!
# From lexemes to the tree of a file

`readShape` follows the grammar over the kinds of the words of a file, and `parse` weaves the
lexemes into the shape that it finds.  The lexemes may come from anywhere; nothing is assumed of
their texts or lines.
-/

namespace JavaLint

/-- How many constructs may lie inside each other. -/
def maxNesting : Nat := 256

/-- A bound on the length of chains of rules over so many words. -/
def fuelFor (count : Nat) : Nat :=
  16 * (count + 1)

/-- The shape of a file, whose words are of the given kinds. -/
def readShape (ks : List Kind) : Except Stop Shape :=
  (readRule Rule.form (fuelFor ks.length) .items maxNesting ks).map Prod.fst

/-- The lexemes that are code. -/
def codeLexemes (lexemes : List Lexeme) : List Lexeme :=
  lexemes.filter fun l => !l.isTrivia

/-- The line after the last character. -/
def endLine (lexemes : List Lexeme) : Nat :=
  match lexemes.getLast? with
  | some l => l.line + Text.breaks l.text.toList
  | none => 1

/-- What a stop of the grammar means for the file: the word at which it happened, or the end of
the file, is the place and the thing found. -/
def Stop.toError (lexemes : List Lexeme) (stop : Stop) : Error :=
  let code := codeLexemes lexemes
  let found := code[code.length - stop.left]?
  let line := (found.map Lexeme.line).getD (endLine lexemes)
  match stop.cause with
  | .expected what => .grammatical line (.expected what (found.map Lexeme.text))
  | .tooDeep => .grammatical line .tooDeep
  | .unfinished => .invariant .unfinished

/-- The trees at the top of the file that the lexemes make up. -/
def parse (lexemes : List Lexeme) : Except Error (Forest Lexeme) :=
  match readShape ((codeLexemes lexemes).map Lexeme.kind) with
  | .ok shape => .ok (weaveFile shape lexemes)
  | .error stop => .error (stop.toError lexemes)

/-- The tree of a file with its root. -/
def fileTree (trees : Forest Lexeme) : Forest Lexeme :=
  .node .sourceFile trees .nil

/-- The tree of a source text. -/
def parseSource (source : String) : Except Error (Forest Lexeme) :=
  Lexeme.scan source >>= parse

end JavaLint
