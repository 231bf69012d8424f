/-!
# JSON values

A value keeps what a reader of settings can tell apart: the spelling of numbers, and the order and
repetition of the members of an object.  A string in which half of a surrogate pair is escaped has
no characters; it is kept as `garbled`, and so is an object with such a key.
-/

namespace JavaLint

/-- A JSON value. -/
inductive Json where
  | null
  | bool (value : Bool)
  /-- A number with its spelling. -/
  | number (spelling : String)
  | string (text : String)
  /-- A string that spells no sequence of characters, or an object that has one as a key. -/
  | garbled
  | array (items : List Json)
  | object (members : List (String × Json))
deriving Inhabited, Repr

namespace Json

/-- A count. -/
def nat (n : Nat) : Json :=
  .number (toString n)

/-- A value, or null if there is none. -/
def opt {α : Type} (encode : α → Json) : Option α → Json
  | some a => encode a
  | none => .null

/-- A list of values. -/
def list {α : Type} (encode : α → Json) (items : List α) : Json :=
  .array (items.map encode)

/-- A list of texts. -/
def strings (texts : List String) : Json :=
  list .string texts

/-- An object with one member, which is how a choice with data is written. -/
def tagged (tag : String) (data : Json) : Json :=
  .object [(tag, data)]

end Json

end JavaLint
