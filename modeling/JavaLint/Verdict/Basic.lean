import JavaLint.Judge.Session
import JavaLint.Verdict.Summary

/-!
# The verdict on a file

A verdict puts the five summaries together.  It grows by taking in outcomes, in any order and
number; the verdict on a file takes in every token and then every line, each once.
-/

namespace JavaLint

/-- The five summaries. -/
structure Verdict where
  code : CodeSummary := {}
  whitespace : WhitespaceSummary := {}
  comment : CommentSummary := {}
  docComment : DocSummary := {}
  line : LineSummary := {}
deriving DecidableEq, Repr

namespace Verdict

/-- Takes in the outcome for a token. -/
def addToken (v : Verdict) (o : TokenOutcome) : Verdict :=
  { v with
    code := v.code.add o
    whitespace := v.whitespace.add o
    comment := v.comment.add o
    docComment := v.docComment.add o }

/-- Takes in the outcome for a line. -/
def addLine (v : Verdict) (o : LineOutcome) : Verdict :=
  { v with line := v.line.add o }

/-- All violations, category by category. -/
def violations (v : Verdict) : List (Category × Violation) :=
  v.code.violations.map (.code, ·) ++ v.whitespace.violations.map (.whitespace, ·) ++
    v.comment.violations.map (.comment, ·) ++ v.docComment.violations.map (.docComment, ·) ++
    v.line.violations.map (.line, ·)

/-- The number of violations. -/
def violationCount (v : Verdict) : Nat :=
  v.code.violations.length + v.whitespace.violations.length + v.comment.violations.length +
    v.docComment.violations.length + v.line.violations.length

/-- Nothing was violated. -/
def passed (v : Verdict) : Bool :=
  v.violationCount = 0

end Verdict

namespace SourceFile

/-- Judges tokens one after the other. -/
def judgeTokens (v : Verdict) (s : Session) : List Nat → Except Error (Verdict × Session)
  | [] => .ok (v, s)
  | number :: numbers =>
    match s.judgeToken number with
    | (.error e, _) => .error e
    | (.ok o, s) => judgeTokens (v.addToken o) s numbers

/-- Judges lines one after the other. -/
def judgeLines (v : Verdict) (s : Session) : List Nat → Except Error (Verdict × Session)
  | [] => .ok (v, s)
  | number :: numbers =>
    match s.judgeLine number with
    | (.error e, _) => .error e
    | (.ok o, s) => judgeLines (v.addLine o) s numbers

/-- The verdict on a file: every token and then every line is judged in one session. -/
def analyze (file : SourceFile) (settings : Settings) : Except Error Verdict := do
  let (v, s) ← judgeTokens {} (.start file settings) (List.range file.table.count)
  let (v, _) ← judgeLines v s (file.table.lines.map Line.number)
  return v

end SourceFile

end JavaLint
