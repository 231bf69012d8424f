import JavaLint.Json.Writer
import JavaLint.Verdict.Finding

/-!
# The JSON form of verdicts and findings

The members come in a fixed order.  A choice without data is written as its name, and one with
data as an object with the name as its only key.
-/

namespace JavaLint

/-- The JSON form of an item. -/
def Item.toJson : Item → Json
  | .token number => .tagged "Token" (.nat number)
  | .line number => .tagged "Line" (.nat number)

/-- The JSON form of a breach. -/
def Breach.toJson : Breach → Json
  | .tooShort => .string "TooShort"
  | .tooLong => .string "TooLong"
  | .naming role expected detected =>
    .tagged "Naming" (.object [("role", .string role.name), ("expected", .string expected.key),
      ("detected", .string detected.key)])
  | .oneLineBraceSpacing => .string "OneLineBraceSpacing"
  | .inconsistentBrace expected found =>
    .tagged "InconsistentBrace" (.object [("expected", .string expected.name),
      ("found", .string found.name)])
  | .commaSpacing => .string "CommaSpacing"
  | .semicolonSpacing => .string "SemicolonSpacing"
  | .operatorSpacing => .string "OperatorSpacing"
  | .mixedIndentation => .string "MixedIndentation"
  | .commentSpacing => .string "CommentSpacing"
  | .docSubject => .string "DocSubject"
  | .docTags tags => .tagged "DocTags" (.object [("tags", .strings tags)])
  | .docUndocumented params => .tagged "DocUndocumented" (.object [("params", .strings params)])
  | .docMissingReturn => .string "DocMissingReturn"
  | .lineTooLong width => .tagged "LineTooLong" (.object [("width", .nat width)])
  | .trailingWhitespace => .string "TrailingWhitespace"

/-- The JSON form of a violation. -/
def Violation.toJson (v : Violation) : Json :=
  .object [("primitive", v.item.toJson), ("rule", v.breach.toJson)]

/-- The JSON form of a summary. -/
def CodeSummary.toJson (s : CodeSummary) : Json :=
  .object [("tokens", .nat s.tokens), ("identifiers", .nat s.names),
    ("too_short", .nat s.tooShort), ("too_long", .nat s.tooLong),
    ("bad_naming", .nat s.badNaming), ("spacing", .nat s.spacing),
    ("starts_new_line", .nat s.startsNewLine), ("stays_in_old_line", .nat s.staysInOldLine),
    ("undetermined", .nat s.undetermined),
    ("brace_style", .opt (fun p => .string p.name) s.braceStyle),
    ("inconsistent_braces", .nat s.inconsistentBraces),
    ("violations", .list Violation.toJson s.violations)]

/-- The JSON form of a summary. -/
def WhitespaceSummary.toJson (s : WhitespaceSummary) : Json :=
  .object [("tokens", .nat s.tokens), ("mixed_indentation", .nat s.mixed),
    ("violations", .list Violation.toJson s.violations)]

/-- The JSON form of a summary. -/
def CommentSummary.toJson (s : CommentSummary) : Json :=
  .object [("comments", .nat s.comments), ("unspaced", .nat s.unspaced),
    ("violations", .list Violation.toJson s.violations)]

/-- The JSON form of a summary. -/
def DocSummary.toJson (s : DocSummary) : Json :=
  .object [("doc_comments", .nat s.docComments),
    ("violations", .list Violation.toJson s.violations)]

/-- The JSON form of a summary. -/
def LineSummary.toJson (s : LineSummary) : Json :=
  .object [("lines", .nat s.lines), ("too_long", .nat s.tooLong),
    ("trailing_whitespace", .nat s.trailingWhitespace),
    ("violations", .list Violation.toJson s.violations)]

/-- The members of the JSON form of a verdict. -/
def Verdict.members (v : Verdict) : List (String × Json) :=
  [("code", v.code.toJson), ("whitespace", v.whitespace.toJson), ("comment", v.comment.toJson),
    ("doc_comment", v.docComment.toJson), ("line", v.line.toJson),
    ("violation_count", .nat v.violationCount)]

/-- The JSON form of a verdict. -/
def Verdict.toJson (v : Verdict) : Json :=
  .object v.members

/-- The JSON form of a finding. -/
def Finding.toJson (f : Finding) : Json :=
  .object [("line", .nat f.line), ("column", .nat f.column),
    ("category", .string f.category.key), ("rule", .string f.rule),
    ("message", .string f.message)]

end JavaLint
