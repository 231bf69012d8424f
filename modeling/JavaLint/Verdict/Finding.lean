import JavaLint.Verdict.Basic

/-!
# Findings

A finding is a violation put into words, with the place where it is to be found.
-/

namespace JavaLint

/-- A violation in words. -/
structure Finding where
  line : Nat
  /-- The column, counted from one; zero if the finding is about the whole line. -/
  column : Nat
  category : Category
  /-- The name of the rule. -/
  rule : String
  message : String
deriving DecidableEq, Repr

namespace Finding

/-- The parts of a shift operator after its first part, as far as they touch: the same text, the
next number, the same line. -/
def shiftTail (table : LineTable) (text : String) : Nat → Token → String
  | 0, _ => ""
  | fuel + 1, last =>
    match table.next? last with
    | some next =>
      if (next.text = ">" || next.text = "<") && next.text = text &&
          next.number = last.number + 1 && next.line = last.line then
        next.text ++ shiftTail table text fuel next
      else ""
    | none => ""

/-- The whole operator that starts with a token. -/
def shiftText (table : LineTable) (token : Token) : String :=
  token.text ++ shiftTail table token.text table.count token

/-- What is said of a token. -/
def tokenMessage (table : LineTable) (token : Token) : Breach → String
  | .tooShort => "'" ++ token.text ++ "' is too short"
  | .tooLong => "'" ++ token.text ++ "' is too long"
  | .naming role expected detected =>
    role.describe ++ " '" ++ token.text ++ "' should be " ++ expected.name ++ ", found " ++
      detected.name
  | .oneLineBraceSpacing =>
    if token.text = "\x7b" then "one-line block needs a space after '\x7b'"
    else "one-line block needs a space before '\x7d'"
  | .inconsistentBrace expected found =>
    "'\x7b' placed " ++ found.describe ++ ", earlier braces are " ++ expected.describe ++
      " (placement is read from the token before '\x7b')"
  | .commaSpacing => "missing space after ','"
  | .semicolonSpacing => "missing space or line break after ';'"
  | .operatorSpacing =>
    "operator '" ++ shiftText table token ++ "' needs a space on both sides"
  | .mixedIndentation => "whitespace mixes tabs and spaces"
  | .commentSpacing => "comment text should start with a space"
  | .docSubject => "doc comment does not fit the declaration after it"
  | .docTags tags => "doc comment refers to unknown " ++ ", ".intercalate tags
  | .docUndocumented params => "parameters without @param: " ++ ", ".intercalate params
  | .docMissingReturn => "missing @return description"
  | .lineTooLong width => "line is " ++ toString width ++ " columns wide"
  | .trailingWhitespace => "trailing whitespace"

/-- What is said of a line. -/
def lineMessage : Breach → String
  | .lineTooLong width => "line is " ++ toString width ++ " columns wide"
  | _ => "trailing whitespace"

/-- A violation in words, for the file of the table. -/
def ofViolation (table : LineTable) (category : Category) (v : Violation) : Finding :=
  match v.item with
  | .line line =>
    { line := line, column := 0, category := category, rule := v.breach.name
      message := lineMessage v.breach }
  | .token number =>
    match table.token number with
    | .error _ =>
      { line := 0, column := 0, category := category, rule := v.breach.name
        message := (Item.token number).message }
    | .ok token =>
      { line := token.line, column := token.column + 1, category := category
        rule := v.breach.name, message := tokenMessage table token v.breach }

end Finding

/-- All violations of a verdict in words. -/
def Verdict.findings (v : Verdict) (table : LineTable) : List Finding :=
  v.violations.map fun (category, violation) => .ofViolation table category violation

/-- A file and the verdict on it. -/
structure Analysis where
  file : SourceFile
  verdict : Verdict

namespace Analysis

/-- Nothing was found. -/
def passed (a : Analysis) : Bool :=
  a.verdict.passed

/-- What was found. -/
def findings (a : Analysis) : List Finding :=
  a.verdict.findings a.file.table

end Analysis

/-- Analyzes a source text. -/
def analyzeSource (source : String) (settings : Settings) : Except Error Analysis := do
  let file ← SourceFile.parse source
  let verdict ← file.analyze settings
  return { file := file, verdict := verdict }

end JavaLint
