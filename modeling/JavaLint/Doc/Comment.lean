import JavaLint.Text.Classes
import JavaLint.Text.Search

/-!
# Doc comments

A doc comment is a description and then block tags, each of which starts a line with `@` and a
word and runs until the next one.  A star at the start of a line is decoration.  Inline links are
looked for in the whole comment, decoration included.
-/

namespace JavaLint

/-- A block tag such as `@param count the number of items`. -/
structure DocTag where
  /-- The word after `@`. -/
  name : String
  /-- The first word after it, for tags that name something. -/
  argument : Option String
  /-- The rest. -/
  body : String
deriving DecidableEq, Repr

namespace DocTag

/-- The tags of this name start by naming something. -/
def takesArgument (name : String) : Bool :=
  name = "param" || name = "throws" || name = "exception" || name = "see"

/-- The tag is about a type parameter. -/
def isTypeParam (tag : DocTag) : Bool :=
  tag.name = "param" && tag.argument.any fun argument => argument.toList.head? = some '<'

/-- The tag makes sense for a method or a constructor only. -/
def isExecutableOnly (tag : DocTag) : Bool :=
  tag.name = "return" || tag.name = "throws" || tag.name = "exception" ||
    (tag.name = "param" && !tag.isTypeParam)

/-- The tag without its body. -/
def render (tag : DocTag) : String :=
  match tag.argument with
  | some argument => "@" ++ tag.name ++ " " ++ argument
  | none => "@" ++ tag.name

/-- The tag with a further line of text. -/
def extend (tag : DocTag) (line : String) : DocTag :=
  { tag with body := if tag.body.isEmpty then line else tag.body ++ " " ++ line }

end DocTag

/-- What a doc comment says. -/
structure DocComment where
  description : String
  tags : List DocTag
  /-- The targets of inline links. -/
  links : List String
  /-- The comment takes over what the overridden method says. -/
  inheritDoc : Bool
deriving DecidableEq, Repr

namespace DocComment

/-! ## Lines -/

/-- The comment without its delimiters. -/
def inner (text : List Char) : List Char :=
  Text.dropEnd ['*', '/'] (Text.dropStart ['/', '*', '*'] text)

/-- A line without its decoration. -/
def undecorate (line : List Char) : List Char :=
  Text.trim (Text.dropStart ['*'] (Text.trimStart line))

/-- Divides the text of a tag, after its name, into argument and body. -/
def tagOf (name : String) (rest : List Char) : DocTag :=
  if DocTag.takesArgument name then
    match Text.cut? Text.isBlank rest with
    | some (argument, body) =>
      ⟨name, some (String.ofList argument), String.ofList (Text.trim body)⟩
    | none => ⟨name, if rest.isEmpty then none else some (String.ofList rest), ""⟩
  else ⟨name, none, String.ofList rest⟩

/-- The tag that starts on a line: `@`, at least one letter of ASCII, and the rest. -/
def readTag? : List Char → Option DocTag
  | '@' :: cs =>
    match cs.takeWhile Char.isAlpha with
    | [] => none
    | name => some (tagOf (String.ofList name) (Text.trim (cs.dropWhile Char.isAlpha)))
  | _ => none

/-- Adds a further line to the last of the tags. -/
def extendLast (line : String) : List DocTag → List DocTag
  | [] => []
  | [tag] => [tag.extend line]
  | tag :: tags => tag :: extendLast line tags

/-- Takes in the next line: it starts a tag, or continues the last tag or the description. -/
def addLine (state : List String × List DocTag) (line : List Char) : List String × List DocTag :=
  match readTag? line with
  | some tag => (state.1, state.2 ++ [tag])
  | none =>
    if line.isEmpty then state
    else if state.2.isEmpty then (state.1 ++ [String.ofList line], [])
    else (state.1, extendLast (String.ofList line) state.2)

/-! ## Links -/

/-- What may follow the opening brace of an inline link. -/
def linkHeads : List (List Char) :=
  ["\x7b@link".toList, "\x7b@linkplain".toList]

/-- The target of an inline link, from what stands after its head: blanks, a word, and anything up
to a closing brace.  Answers also what follows the brace. -/
def linkTarget? (cs : List Char) : Option (List Char × List Char) :=
  let target := (Text.trimStart cs).takeWhile fun c => !Text.isBlank c && c != '\x7d'
  if cs.head?.any Text.isBlank && !target.isEmpty then
    (Text.cut? (· == '\x7d') (Text.trimStart cs)).map fun r => (target, r.2)
  else none

/-- The inline link at the start of a text: its target and what follows it. -/
def link? (cs : List Char) : Option (List Char × List Char) :=
  linkHeads.findSome? fun head => (Text.dropStart? head cs).bind linkTarget?

/-- The targets of all inline links; a link is not looked for inside another. -/
def linksFrom : Nat → List Char → List String
  | 0, _ => []
  | _ + 1, [] => []
  | fuel + 1, c :: cs =>
    match link? (c :: cs) with
    | some (target, rest) => String.ofList target :: linksFrom fuel rest
    | none => linksFrom fuel cs

/-! ## The whole comment -/

/-- What the text of a doc comment says. -/
def parse (text : String) : DocComment :=
  let inner := inner text.toList
  let (description, tags) :=
    ((Text.splitAt '\n' inner).map undecorate).foldl addLine ([], [])
  { description := " ".intercalate description
    tags := tags
    links := linksFrom inner.length inner
    inheritDoc := Text.contains "\x7b@inheritDoc\x7d".toList inner }

/-- The tags of a name. -/
def tagsNamed (doc : DocComment) (name : String) : List DocTag :=
  doc.tags.filter fun tag => tag.name = name

/-- What `@see` tags and inline links refer to. -/
def references (doc : DocComment) : List String :=
  (doc.tagsNamed "see").filterMap DocTag.argument ++ doc.links

end DocComment

end JavaLint
