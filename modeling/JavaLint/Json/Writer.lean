import JavaLint.Json.Basic

/-!
# Writing JSON

The compact form: no blanks, members in their order, and in strings an escape only where the
format demands one.
-/

namespace JavaLint.Json

/-- A character of a string: quotation marks, backslashes and control characters are escaped. -/
def writeChar (c : Char) : List Char :=
  if c = '"' then ['\\', '"']
  else if c = '\\' then ['\\', '\\']
  else if c = '\n' then ['\\', 'n']
  else if c = '\r' then ['\\', 'r']
  else if c = '\t' then ['\\', 't']
  else if c = '\x08' then ['\\', 'b']
  else if c = '\x0c' then ['\\', 'f']
  else if c.toNat < 32 then
    ['\\', 'u', '0', '0', Nat.digitChar (c.toNat / 16), Nat.digitChar (c.toNat % 16)]
  else [c]

/-- A string between quotation marks. -/
def writeString (s : String) : String :=
  String.ofList (['"'] ++ s.toList.flatMap writeChar ++ ['"'])

mutual

/-- The compact form of a value. -/
def write : Json → String
  | null => "null"
  | bool b => if b then "true" else "false"
  | number spelling => spelling
  | string s => writeString s
  | garbled => "\"\""
  | array items => "[" ++ ",".intercalate (writeItems items) ++ "]"
  | object members => "\x7b" ++ ",".intercalate (writeMembers members) ++ "\x7d"

/-- The items of an array. -/
def writeItems : List Json → List String
  | [] => []
  | item :: items => write item :: writeItems items

/-- The members of an object. -/
def writeMembers : List (String × Json) → List String
  | [] => []
  | (key, value) :: members => (writeString key ++ ":" ++ write value) :: writeMembers members

end

end JavaLint.Json
