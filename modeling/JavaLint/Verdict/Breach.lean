import JavaLint.Error
import JavaLint.Judge.Outcome

/-!
# Breaches of rules

A breach is a rule that was broken, with what a message about it needs.  A violation is a breach
with the token or line at which it happened.
-/

namespace JavaLint

/-- What a rule is about. -/
inductive Category where
  | code | whitespace | comment | docComment | line
deriving DecidableEq, Repr

namespace Category

/-- The category as findings call it. -/
def name : Category → String
  | code => "code"
  | whitespace => "whitespace"
  | comment => "comment"
  | docComment => "doc-comment"
  | line => "line"

/-- The category as reports call it. -/
def key : Category → String
  | docComment => "doc_comment"
  | c => c.name

end Category

/-- A rule that was broken. -/
inductive Breach where
  | tooShort
  | tooLong
  | naming (role : Role) (expected detected : NamingStyle)
  | oneLineBraceSpacing
  | inconsistentBrace (expected found : BracePlacement)
  | commaSpacing
  | semicolonSpacing
  | operatorSpacing
  | mixedIndentation
  | commentSpacing
  | docSubject
  | docTags (tags : List String)
  | docUndocumented (params : List String)
  | docMissingReturn
  | lineTooLong (width : Nat)
  | trailingWhitespace
deriving DecidableEq, Repr

/-- The name of the rule. -/
def Breach.name : Breach → String
  | tooShort => "too-short"
  | tooLong => "too-long"
  | naming .. => "naming"
  | oneLineBraceSpacing => "brace-spacing"
  | inconsistentBrace .. => "brace-placement"
  | commaSpacing => "comma-spacing"
  | semicolonSpacing => "semicolon-spacing"
  | operatorSpacing => "operator-spacing"
  | mixedIndentation => "mixed-indentation"
  | commentSpacing => "comment-spacing"
  | docSubject => "doc-subject"
  | docTags _ => "doc-tags"
  | docUndocumented _ => "doc-params"
  | docMissingReturn => "doc-return"
  | lineTooLong _ => "line-length"
  | trailingWhitespace => "trailing-whitespace"

/-- A breach and where it happened. -/
structure Violation where
  item : Item
  breach : Breach
deriving DecidableEq, Repr

end JavaLint
