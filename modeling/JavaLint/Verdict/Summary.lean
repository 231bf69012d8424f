import JavaLint.Verdict.Breach

/-!
# Summaries by category

Each summary counts the outcomes of one category and keeps its violations in the order in which
they came.  Outcomes are taken as they are given: nothing is assumed about how their parts fit
together.
-/

namespace JavaLint

/-! ## Code -/

/-- The summary of code tokens. -/
structure CodeSummary where
  tokens : Nat := 0
  names : Nat := 0
  tooShort : Nat := 0
  tooLong : Nat := 0
  badNaming : Nat := 0
  spacing : Nat := 0
  startsNewLine : Nat := 0
  staysInOldLine : Nat := 0
  undetermined : Nat := 0
  /-- The first placement that was determined; later braces are held against it. -/
  braceStyle : Option BracePlacement := none
  inconsistentBraces : Nat := 0
  violations : List Violation := []
deriving DecidableEq, Repr

namespace CodeSummary

/-- Adds a violation at a token. -/
def push (s : CodeSummary) (token : Nat) (breach : Breach) : CodeSummary :=
  { s with violations := s.violations ++ [⟨.token token, breach⟩] }

/-- Takes in the length of a name. -/
def addLength (s : CodeSummary) (token : Nat) : LengthCheck → CodeSummary
  | .tooShort => { s with tooShort := s.tooShort + 1 }.push token .tooShort
  | .tooLong => { s with tooLong := s.tooLong + 1 }.push token .tooLong
  | .withinBounds => s

/-- Takes in the style of a name. -/
def addStyle (s : CodeSummary) (token : Nat) (n : NameOutcome) : CodeSummary :=
  if n.isWellSpelled then s
  else { s with badNaming := s.badNaming + 1 }.push token (.naming n.role n.expected n.detected)

/-- Counts a placement. -/
def countPlacement (s : CodeSummary) : BracePlacement → CodeSummary
  | .startsNewLine => { s with startsNewLine := s.startsNewLine + 1 }
  | .staysInOldLine => { s with staysInOldLine := s.staysInOldLine + 1 }
  | .undetermined => { s with undetermined := s.undetermined + 1 }

/-- Holds a placement that was determined against the first such placement. -/
def comparePlacement (s : CodeSummary) (token : Nat) (found : BracePlacement) : CodeSummary :=
  match s.braceStyle with
  | none => { s with braceStyle := some found }
  | some expected =>
    if expected = found then s
    else
      { s with inconsistentBraces := s.inconsistentBraces + 1 }.push token
        (.inconsistentBrace expected found)

/-- Takes in the placement of an opening brace. -/
def addPlacement (s : CodeSummary) (token : Nat) (placement : BracePlacement) : CodeSummary :=
  if placement = .undetermined then s.countPlacement placement
  else (s.countPlacement placement).comparePlacement token placement

/-- Takes in a token of which a rule about spaces was asked. -/
def addSpacing (s : CodeSummary) (token : Nat) (fine : Bool) (breach : Breach) : CodeSummary :=
  if fine then s else { s with spacing := s.spacing + 1 }.push token breach

/-- Takes in the outcome for a code token. -/
def addCode (s : CodeSummary) (token : Nat) (fine : Bool) : CodeOutcome → CodeSummary
  | .name n => ({ s with names := s.names + 1 }.addLength token n.length).addStyle token n
  | .openingBrace placement => s.addPlacement token placement
  | .oneLineBrace _ => s.addSpacing token fine .oneLineBraceSpacing
  | .comma _ => s.addSpacing token fine .commaSpacing
  | .semicolon _ => s.addSpacing token fine .semicolonSpacing
  | .lowOperator _ _ => s.addSpacing token fine .operatorSpacing
  | .unchecked => s

/-- Takes in the outcome for a token, if the token is code. -/
def add (s : CodeSummary) (o : TokenOutcome) : CodeSummary :=
  match o.ruling with
  | .code outcome => { s with tokens := s.tokens + 1 }.addCode o.token o.fine outcome
  | _ => s

end CodeSummary

/-! ## Whitespace and comments -/

/-- The summary of whitespace. -/
structure WhitespaceSummary where
  tokens : Nat := 0
  mixed : Nat := 0
  violations : List Violation := []
deriving DecidableEq, Repr

/-- Takes in the outcome for a token, if the token is whitespace. -/
def WhitespaceSummary.add (s : WhitespaceSummary) (o : TokenOutcome) : WhitespaceSummary :=
  match o.ruling with
  | .whitespace true =>
    { tokens := s.tokens + 1
      mixed := s.mixed + 1
      violations := s.violations ++ [⟨.token o.token, .mixedIndentation⟩] }
  | .whitespace false => { s with tokens := s.tokens + 1 }
  | _ => s

/-- The summary of comments. -/
structure CommentSummary where
  comments : Nat := 0
  unspaced : Nat := 0
  violations : List Violation := []
deriving DecidableEq, Repr

/-- Takes in the outcome for a token, if the token is a comment. -/
def CommentSummary.add (s : CommentSummary) (o : TokenOutcome) : CommentSummary :=
  match o.ruling with
  | .comment false =>
    { comments := s.comments + 1
      unspaced := s.unspaced + 1
      violations := s.violations ++ [⟨.token o.token, .commentSpacing⟩] }
  | .comment true => { s with comments := s.comments + 1 }
  | _ => s

/-- The summary of doc comments. -/
structure DocSummary where
  docComments : Nat := 0
  violations : List Violation := []
deriving DecidableEq, Repr

/-- The first thing that is wrong with a doc comment. -/
def DocCheck.breach? (check : DocCheck) : Option Breach :=
  if !check.subjectMatched then some .docSubject
  else if !check.unmatchedTags.isEmpty then some (.docTags check.unmatchedTags)
  else if !check.unmatchedParams.isEmpty then some (.docUndocumented check.unmatchedParams)
  else if check.returnMissing then some .docMissingReturn
  else none

/-- Takes in the outcome for a token, if the token is a doc comment. -/
def DocSummary.add (s : DocSummary) (o : TokenOutcome) : DocSummary :=
  match o.ruling with
  | .docComment check =>
    { docComments := s.docComments + 1
      violations := s.violations ++ check.breach?.toList.map fun breach => ⟨.token o.token, breach⟩ }
  | _ => s

/-! ## Lines -/

/-- The summary of lines. -/
structure LineSummary where
  lines : Nat := 0
  tooLong : Nat := 0
  trailingWhitespace : Nat := 0
  violations : List Violation := []
deriving DecidableEq, Repr

namespace LineSummary

/-- Takes in the width of a line. -/
def addWidth (s : LineSummary) (o : LineOutcome) : LineSummary :=
  if o.tooLong then
    { s with
      tooLong := s.tooLong + 1
      violations := s.violations ++ [⟨.line o.line, .lineTooLong o.width⟩] }
  else s

/-- Takes in the end of a line. -/
def addEnd (s : LineSummary) (o : LineOutcome) : LineSummary :=
  if o.trailingSpace then
    { s with
      trailingWhitespace := s.trailingWhitespace + 1
      violations := s.violations ++ [⟨.line o.line, .trailingWhitespace⟩] }
  else s

/-- Takes in the outcome for a line. -/
def add (s : LineSummary) (o : LineOutcome) : LineSummary :=
  ({ s with lines := s.lines + 1 }.addWidth o).addEnd o

end LineSummary

end JavaLint
