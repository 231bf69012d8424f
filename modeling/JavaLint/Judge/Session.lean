import JavaLint.Judge.Rules

/-!
# Judging each item once

A `Session` judges the tokens and lines of one file, in any order, each at most once.  A second
request for the same item is refused, and so is one for an item that does not exist.
-/

namespace JavaLint

/-- A file that is being judged. -/
structure Session where
  file : SourceFile
  settings : Settings
  /-- For each token, whether it has been judged. -/
  tokensDone : Array Bool
  /-- For each line, whether it has been judged. -/
  linesDone : Array Bool

namespace Session

/-- A session in which nothing has been judged. -/
def start (file : SourceFile) (settings : Settings) : Session where
  file := file
  settings := settings
  tokensDone := Array.replicate file.table.count false
  linesDone := Array.replicate file.table.rows.size false

/-- Judges a token. -/
def judgeToken (s : Session) (number : Nat) : Except Error TokenOutcome × Session :=
  match s.tokensDone[number]? with
  | none => (.error (.outOfRange number s.file.table.count), s)
  | some true => (.error (.alreadyJudged (.token number)), s)
  | some false =>
    (s.file.judgeToken s.settings number,
      { s with tokensDone := s.tokensDone.setIfInBounds number true })

/-- The place of a line among all lines. -/
def lineDone? (s : Session) : Nat → Option Bool
  | 0 => none
  | n + 1 => s.linesDone[n]?

/-- Judges a line. -/
def judgeLine (s : Session) (number : Nat) : Except Error LineOutcome × Session :=
  match s.lineDone? number with
  | none => (.error (.invariant (.noLine number)), s)
  | some true => (.error (.alreadyJudged (.line number)), s)
  | some false =>
    (.ok (s.file.judgeLine s.settings number),
      { s with linesDone := s.linesDone.setIfInBounds (number - 1) true })

end Session

end JavaLint
