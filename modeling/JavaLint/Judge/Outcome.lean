import JavaLint.Doc.Check
import JavaLint.Style.Settings

/-!
# Outcomes of the rules

What the rules say about one token or one line.  An outcome is not an error: a name may be too
long and an operator may lack a space.
-/

namespace JavaLint

/-- Where the opening brace of a scope of several lines stands. -/
inductive BracePlacement where
  | startsNewLine
  | staysInOldLine
  /-- There is whitespace before the brace, and something before the whitespace. -/
  | undetermined
deriving DecidableEq, Repr

namespace BracePlacement

/-- The placement as findings call it. -/
def describe : BracePlacement → String
  | startsNewLine => "on its own line"
  | staysInOldLine => "at the end of the line"
  | undetermined => "undetermined"

/-- The placement as reports call it. -/
def name : BracePlacement → String
  | startsNewLine => "StartsNewLine"
  | staysInOldLine => "StaysInOldLine"
  | undetermined => "Undetermined"

end BracePlacement

/-- What the rules say about a declared name. -/
structure NameOutcome where
  role : Role
  length : LengthCheck
  detected : NamingStyle
  expected : NamingStyle
deriving DecidableEq, Repr

/-- The name has the style that it should have. -/
def NameOutcome.isWellSpelled (n : NameOutcome) : Bool :=
  n.detected = n.expected

/-- What the rules say about a code token. -/
inductive CodeOutcome where
  | name (outcome : NameOutcome)
  /-- One of the braces of a scope on one line. -/
  | oneLineBrace (spaced : Bool)
  /-- The opening brace of a scope of several lines. -/
  | openingBrace (placement : BracePlacement)
  | comma (spacedAfter : Bool)
  | semicolon (spacedAfter : Bool)
  | lowOperator (spacedBefore spacedAfter : Bool)
  /-- No rule applies. -/
  | unchecked
deriving DecidableEq, Repr

/-- The token is as it should be.  The length of a name is not asked here. -/
def CodeOutcome.isFine : CodeOutcome → Bool
  | name n => n.isWellSpelled
  | oneLineBrace spaced => spaced
  | comma spacedAfter | semicolon spacedAfter => spacedAfter
  | lowOperator spacedBefore spacedAfter => spacedBefore && spacedAfter
  | openingBrace _ | unchecked => true

/-- What the rules say about a token of any channel. -/
inductive TokenRuling where
  | whitespace (mixed : Bool)
  | code (outcome : CodeOutcome)
  | comment (spaced : Bool)
  | docComment (check : DocCheck)
deriving DecidableEq, Repr

/-- The token is as it should be. -/
def TokenRuling.isFine : TokenRuling → Bool
  | whitespace mixed => !mixed
  | code outcome => outcome.isFine
  | comment spaced => spaced
  | docComment check => !check.isBad

/-- The outcome for a token. -/
structure TokenOutcome where
  /-- The number of the token. -/
  token : Nat
  ruling : TokenRuling
  /-- The token is as it should be. -/
  fine : Bool
deriving DecidableEq, Repr

/-- The outcome for a line. -/
structure LineOutcome where
  /-- The number of the line. -/
  line : Nat
  width : Nat
  tooLong : Bool
  trailingSpace : Bool
  /-- The line is as it should be. -/
  fine : Bool
deriving DecidableEq, Repr

end JavaLint
