import JavaLint.Text.Graphic

/-!
# Why the analysis of a file fails

A failure is a cause, not a text; `Error.message` is the only place where causes are put into
words.  The first two causes blame the file, all others the caller or the program itself.
-/

namespace JavaLint

/-- Why a text cannot be cut into lexemes. -/
inductive LexicalCause where
  /-- No lexeme starts with this character. -/
  | unexpected (c : Char)
  /-- A comment is not closed. -/
  | openComment
  /-- A string literal is not closed on its line. -/
  | openString
  /-- A character literal is not closed on its line. -/
  | openChar
  /-- A text block is not closed. -/
  | openTextBlock
  /-- Something follows the opening delimiter of a text block on its line. -/
  | textBlockOpening
deriving DecidableEq, Repr

/-- Why a sequence of lexemes is no file. -/
inductive GrammarCause where
  /-- Something else was expected than the word that was found; `none` is the end of the file. -/
  | expected (what : String) (found : Option String)
  /-- Too many constructs lie inside each other. -/
  | tooDeep
deriving DecidableEq, Repr

/-- What can be judged by the format rules. -/
inductive Item where
  /-- The token with this number. -/
  | token (number : Nat)
  /-- The line with this number. -/
  | line (number : Nat)
deriving DecidableEq, Repr

/-- Which agreement between the parts of the program is broken. -/
inductive Fault where
  /-- The grammar needed more steps than it was given. -/
  | unfinished
  /-- A model was built from two trees. -/
  | walkedTwice
  /-- A model was wanted before a tree was read. -/
  | notWalked
  /-- A leaf of the tree has no token. -/
  | noEntry (leaf : String)
  /-- A leaf of the tree has a token with another text. -/
  | mismatch (leaf token : String)
  /-- A braced node has no code in it. -/
  | noBraces
  /-- A declaration has no code in it. -/
  | noTokens
  /-- A name is declared by a node of this kind, for which no declaration was begun. -/
  | noDeclaration (owner : String)
  /-- A scope is closed that was never opened. -/
  | noScope
  /-- Declarations are not finished when the walk ends. -/
  | openDeclarations
  /-- Scopes are not closed when the walk ends. -/
  | openScopes
  /-- There is no such line. -/
  | noLine (number : Nat)
  /-- A role has no naming rule. -/
  | noNamingRule (role : String)
deriving DecidableEq, Repr

/-- Why the analysis of a file fails. -/
inductive Error where
  | lexical (line : Nat) (cause : LexicalCause)
  | grammatical (line : Nat) (cause : GrammarCause)
  /-- There are only `count` tokens. -/
  | outOfRange (number count : Nat)
  | alreadyJudged (item : Item)
  | invariant (fault : Fault)
deriving DecidableEq, Repr

/-- The cause in words. -/
def LexicalCause.message : LexicalCause → String
  | unexpected c => "unexpected character '" ++ String.ofList (Text.escape ['\'', '"'] c) ++ "'"
  | openComment => "unterminated comment"
  | openString => "unterminated string literal"
  | openChar => "unterminated character literal"
  | openTextBlock => "unterminated text block"
  | textBlockOpening => "text block opening delimiter must end its line"

/-- The cause in words. -/
def GrammarCause.message : GrammarCause → String
  | expected what (some found) => "expected " ++ what ++ ", found '" ++ found ++ "'"
  | expected what none => "expected " ++ what ++ ", found end of file"
  | tooDeep => "nesting too deep"

/-- The item in words. -/
def Item.message : Item → String
  | token number => "token #" ++ toString number
  | line number => "line " ++ toString number

/-- The fault in words. -/
def Fault.message : Fault → String
  | unfinished => "grammar ran out of steps"
  | walkedTwice => "syntax tree walked twice"
  | notWalked => "scope model finished before the tree was walked"
  | noEntry leaf => "tree token '" ++ leaf ++ "' has no index entry"
  | mismatch leaf token =>
    "tree token '" ++ leaf ++ "' does not match indexed token '" ++ token ++ "'"
  | noBraces => "brace scope without braces"
  | noTokens => "declaration without tokens"
  | noDeclaration owner => "no declaration in progress for " ++ owner
  | noScope => "scope stack underflow"
  | openDeclarations => "declarations left open after the walk"
  | openScopes => "scopes left open after the walk"
  | noLine number => "no line " ++ toString number
  | noNamingRule role => "no naming rule for " ++ role

/-- The failure in words. -/
def Error.message : Error → String
  | lexical line cause => "lexical error at line " ++ toString line ++ ": " ++ cause.message
  | grammatical line cause => "syntax error at line " ++ toString line ++ ": " ++ cause.message
  | outOfRange number count =>
    "token index " ++ toString number ++ " out of range (file has " ++ toString count ++ " tokens)"
  | alreadyJudged item => item.message ++ " has already been evaluated"
  | invariant fault => "internal invariant violated: " ++ fault.message

/-- The failure is one of the text that was given, not of the program. -/
def Error.blamesText : Error → Bool
  | lexical .. | grammatical .. => true
  | _ => false

end JavaLint
