import JavaLint.Text.Number

/-!
# Naming styles

How a name is spelled.  A name of capital letters only, such as `ABC`, could be read in two ways;
it counts as words of capital letters.
-/

namespace JavaLint

/-- How a name is spelled. -/
inductive NamingStyle where
  /-- `FooBar`: every word starts with a capital letter. -/
  | pascal
  /-- `fooBar`: every word but the first starts with a capital letter. -/
  | camel
  /-- `FOO_BAR`: words of capital letters, joined by underscores. -/
  | upperUnderscore
  /-- Anything else. -/
  | other
deriving DecidableEq, Repr

namespace NamingStyle

/-- The style as messages call it. -/
def name : NamingStyle → String
  | pascal => "PascalCase"
  | camel => "camelCase"
  | upperUnderscore => "UPPER_UNDERSCORE"
  | other => "other"

/-- The style as settings call it. -/
def key : NamingStyle → String
  | pascal => "pascal"
  | camel => "camel"
  | upperUnderscore => "upper_underscore"
  | other => "other"

/-- The style that settings call so. -/
def ofKey? (key : String) : Option NamingStyle :=
  [pascal, camel, upperUnderscore, other].find? fun style => style.key = key

/-- A letter of ASCII in lower case, without hyphens and underscores. -/
def foldSpelling (text : String) : String :=
  String.ofList ((text.toList.map Char.toLower).filter fun c => c != '-' && c != '_')

/-- The style that a person calls so: letter case, hyphens and underscores do not matter. -/
def ofText? (text : String) : Option NamingStyle :=
  match foldSpelling text with
  | "pascal" | "pascalcase" => some pascal
  | "camel" | "camelcase" => some camel
  | "upperunderscore" | "upper" | "screaming" => some upperUnderscore
  | "other" => some other
  | _ => none

/-- A capital letter of ASCII, or a digit of any script. -/
def isUpperOrDigit (c : Char) : Bool :=
  c.isUpper || Text.isDecimalDigit c

/-- A letter of ASCII, or a digit of any script. -/
def isLetterOrDigit (c : Char) : Bool :=
  c.isAlpha || Text.isDecimalDigit c

/-- Words of capital letters and digits, joined by underscores; `inWord` says whether the text
before ends inside a word. -/
def upperWords : Bool → List Char → Bool
  | inWord, [] => inWord
  | inWord, c :: cs =>
    if c = '_' then inWord && upperWords false cs else isUpperOrDigit c && upperWords true cs

/-- The style of a name. -/
def detect : List Char → NamingStyle
  | [] => other
  | c :: cs =>
    if c.isUpper then
      if upperWords false (c :: cs) then upperUnderscore
      else if cs.all isLetterOrDigit then pascal
      else other
    else if c.isLower && cs.all isLetterOrDigit then camel
    else other

end NamingStyle

end JavaLint
