import JavaLint.Json.Reader
import JavaLint.Json.Writer
import JavaLint.Style.Naming
import JavaLint.Text.Number
import JavaLint.Token.Role

/-!
# Settings

The limits and the naming styles that the rules apply, and their JSON form.  Settings are an
object with any of seven keys, each at most once; keys that are missing keep their defaults and
other keys are ignored.  The values may also be given as a list in the order of the keys.
-/

namespace JavaLint

/-- The limits and styles that the rules apply. -/
structure Settings where
  /-- Shorter names are too short. -/
  minNameLength : Nat := 4
  /-- Longer names are too long. -/
  maxNameLength : Nat := 15
  /-- The style of the names of types. -/
  classNaming : NamingStyle := .pascal
  /-- The style of the names of methods and constructors. -/
  methodNaming : NamingStyle := .camel
  /-- The style of the names of fields, variables and parameters. -/
  variableNaming : NamingStyle := .camel
  /-- The style of the names of fields and variables that are `static` or `final`. -/
  constantNaming : NamingStyle := .upperUnderscore
  /-- Wider lines are too long. -/
  maxLineWidth : Nat := 100
deriving DecidableEq, Repr

/-- Why settings are refused. -/
inductive SettingsError where
  /-- The text is not the JSON form of settings. -/
  | malformed
  /-- No length of a name would do. -/
  | lengths (min max : Nat)
  /-- No line would do. -/
  | noWidth
deriving DecidableEq, Repr

namespace Settings

/-- The keys of the JSON form. -/
inductive Key where
  | minLength | maxLength | classNaming | methodNaming | variableNaming | constantNaming
  | lineWidth
deriving DecidableEq, Repr

namespace Key

/-- All keys in their order. -/
def all : List Key :=
  [minLength, maxLength, classNaming, methodNaming, variableNaming, constantNaming, lineWidth]

/-- The spelling of a key. -/
def spelling : Key → String
  | minLength => "min_identifier_length"
  | maxLength => "max_identifier_length"
  | classNaming => "class_naming"
  | methodNaming => "method_naming"
  | variableNaming => "variable_naming"
  | constantNaming => "constant_naming"
  | lineWidth => "max_line_length"

/-- The key with a spelling. -/
def ofSpelling? (s : String) : Option Key :=
  all.find? fun key => key.spelling = s

end Key

/-- A limit: a whole number without sign, fraction and exponent. -/
def readLimit? : Json → Option Nat
  | .number spelling => Text.readDigits? spelling.toList
  | _ => none

/-- A style: its name, or an object with the name as its only key and no data. -/
def readStyle? : Json → Option NamingStyle
  | .string name => NamingStyle.ofKey? name
  | .object [(name, .null)] => NamingStyle.ofKey? name
  | _ => none

/-- Sets the value of a key. -/
def set? (s : Settings) (value : Json) : Key → Option Settings
  | .minLength => (readLimit? value).map fun n => { s with minNameLength := n }
  | .maxLength => (readLimit? value).map fun n => { s with maxNameLength := n }
  | .classNaming => (readStyle? value).map fun n => { s with classNaming := n }
  | .methodNaming => (readStyle? value).map fun n => { s with methodNaming := n }
  | .variableNaming => (readStyle? value).map fun n => { s with variableNaming := n }
  | .constantNaming => (readStyle? value).map fun n => { s with constantNaming := n }
  | .lineWidth => (readLimit? value).map fun n => { s with maxLineWidth := n }

/-- The value of a key. -/
def get (s : Settings) : Key → Json
  | .minLength => Json.nat s.minNameLength
  | .maxLength => Json.nat s.maxNameLength
  | .classNaming => .string s.classNaming.key
  | .methodNaming => .string s.methodNaming.key
  | .variableNaming => .string s.variableNaming.key
  | .constantNaming => .string s.constantNaming.key
  | .lineWidth => Json.nat s.maxLineWidth

/-- Takes in the members of an object, where `seen` are the keys that were given before. -/
def setMembers? (seen : List Key) (s : Settings) : List (String × Json) → Option Settings
  | [] => some s
  | (name, value) :: members =>
    match Key.ofSpelling? name with
    | none => setMembers? seen s members
    | some key =>
      if seen.contains key then none
      else (s.set? value key).bind fun s => setMembers? (key :: seen) s members

/-- Takes in values for the keys in their order. -/
def setItems? (s : Settings) : List Key → List Json → Option Settings
  | _, [] => some s
  | [], _ :: _ => none
  | key :: keys, value :: values => (s.set? value key).bind fun s => setItems? s keys values

/-- The settings of a JSON value, whether they make sense or not. -/
def ofJson? : Json → Option Settings
  | .object members => setMembers? [] {} members
  | .array items => setItems? {} Key.all items
  | _ => none

/-- The JSON form, with all keys. -/
def toJson (s : Settings) : Json :=
  .object (Key.all.map fun key => (key.spelling, s.get key))

/-- Refuses limits that nothing could meet. -/
def validate (s : Settings) : Except SettingsError Settings :=
  if s.maxNameLength < s.minNameLength then .error (.lengths s.minNameLength s.maxNameLength)
  else if s.maxLineWidth = 0 then .error .noWidth
  else .ok s

/-- The settings that a text spells, if they make sense. -/
def ofText (text : String) : Except SettingsError Settings :=
  match (Json.read? text).bind ofJson? with
  | none => .error .malformed
  | some s => s.validate

/-! ## What the settings ask of names -/

/-- The style that a declared name should have; `none` if the token is no declared name. -/
def expectedStyle? (s : Settings) (c : Classification) : Option NamingStyle :=
  if c.role.isTypeName then some s.classNaming
  else match c.role with
    | .constructorName | .methodName => some s.methodNaming
    | .fieldName | .variableName =>
      some (if c.isStaticOrFinal then s.constantNaming else s.variableNaming)
    | .parameterName | .forVariableName => some s.variableNaming
    | _ => none

end Settings

/-- How the length of a name relates to the limits. -/
inductive LengthCheck where
  | tooShort | tooLong | withinBounds
deriving DecidableEq, Repr

/-- Holds the number of characters of a name against the limits. -/
def Settings.checkLength (s : Settings) (name : String) : LengthCheck :=
  if name.length < s.minNameLength then .tooShort
  else if s.maxNameLength < name.length then .tooLong
  else .withinBounds

end JavaLint
