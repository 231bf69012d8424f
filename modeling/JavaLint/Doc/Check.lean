import JavaLint.Doc.Comment
import JavaLint.Model.Basic

/-!
# Doc comments against declarations

A doc comment has to fit the declaration after it: it may speak only of what the declaration has,
and it has to speak of every parameter and of the result.
-/

namespace JavaLint

/-- How a doc comment fits the declaration after it. -/
structure DocCheck where
  /-- There is a declaration, of a kind to which the tags of the comment may belong. -/
  subjectMatched : Bool := false
  /-- The tags and references that name something unknown. -/
  unmatchedTags : List String := []
  /-- The parameters of which the comment does not speak. -/
  unmatchedParams : List String := []
  /-- The comment does not speak of the result. -/
  returnMissing : Bool := false
deriving DecidableEq, Repr

namespace DocCheck

/-- Something is wrong with the comment. -/
def isBad (check : DocCheck) : Bool :=
  !check.subjectMatched || !check.unmatchedTags.isEmpty || !check.unmatchedParams.isEmpty ||
    check.returnMissing

/-! ## The single checks -/

/-- The tags of the comment may belong to the declaration. -/
def fitsSubject (doc : DocComment) (d : Declaration) : Bool :=
  match d.kind with
  | .constructor | .method => true
  | .recordDecl => !doc.tags.any fun tag => tag.isExecutableOnly && tag.name != "param"
  | _ => !doc.tags.any DocTag.isExecutableOnly

/-- What stands between angle brackets, if the whole argument does. -/
def typeArgument? (argument : List Char) : Option (List Char) :=
  (Text.dropStart? ['<'] argument).bind (Text.dropEnd? ['>'])

/-- The declaration has what a `@param` tag names. -/
def knowsParam (d : Declaration) (argument : String) : Bool :=
  match typeArgument? argument.toList with
  | some name => d.typeParams.contains (String.ofList name)
  | none => d.params.contains argument || d.recordComponents.contains argument

/-- The `@param` tags that name nothing, or nothing that the declaration has. -/
def unknownParams (doc : DocComment) (d : Declaration) : List String :=
  ((doc.tagsNamed "param").filter fun tag => !tag.argument.any (knowsParam d)).map DocTag.render

/-- The `@return` tags of what has no result. -/
def strayReturns (doc : DocComment) (d : Declaration) : List String :=
  if d.kind = .constructor || d.returnsVoid then (doc.tagsNamed "return").map DocTag.render
  else []

/-- The exceptions that need not be declared. -/
def uncheckedExceptions : List String :=
  ["RuntimeException", "IllegalArgumentException", "IllegalStateException",
   "NullPointerException", "IndexOutOfBoundsException", "ArrayIndexOutOfBoundsException",
   "StringIndexOutOfBoundsException", "UnsupportedOperationException", "ArithmeticException",
   "ClassCastException", "NumberFormatException", "ConcurrentModificationException",
   "NoSuchElementException", "SecurityException", "NegativeArraySizeException",
   "ArrayStoreException"]

/-- The last part of a name with points. -/
def simpleName (name : String) : String :=
  String.ofList (((Text.splitAt '.' name.toList).getLast?).getD [])

/-- A declared exception covers the documented one: they have the same simple name, or the
declared one is the most general. -/
def covers (declared name : String) : Bool :=
  simpleName declared = name || simpleName declared = "Exception" ||
    simpleName declared = "Throwable"

/-- The exception that a tag names is an error, or unchecked, or declared. -/
def knowsException (d : Declaration) (argument : String) : Bool :=
  let name := simpleName argument
  (Text.dropEnd? "Error".toList name.toList).isSome || uncheckedExceptions.contains name ||
    d.throwsTypes.any fun declared => covers declared name

/-- The `@throws` and then the `@exception` tags that name no exception, or none that can be
thrown. -/
def unknownExceptions (doc : DocComment) (d : Declaration) : List String :=
  if d.kind.isExecutable then
    ((doc.tagsNamed "throws" ++ doc.tagsNamed "exception").filter fun tag =>
      !tag.argument.any (knowsException d)).map DocTag.render
  else []

/-- The owner and the member of a reference such as `Outer#member(args)`. -/
def splitReference? (reference : String) : Option (String × String) :=
  (Text.cut? (· == '#') reference.toList).map fun r =>
    (String.ofList r.1, String.ofList (r.2.takeWhile (· != '(')))

/-- The references to members of types of the file that do not exist. -/
def unknownReferences (doc : DocComment) (types members : List String) : List String :=
  doc.references.filterMap fun reference =>
    match splitReference? reference with
    | some (owner, member) =>
      if (owner.isEmpty || types.contains owner) && !members.contains member then
        some ("#" ++ member)
      else none
    | none => none

/-- The parameters, or the components of a record, that have no `@param` tag. -/
def undocumented (doc : DocComment) (d : Declaration) : List String :=
  let documented := (doc.tagsNamed "param").filterMap DocTag.argument
  (if d.kind = .recordDecl then d.recordComponents else d.params).filter fun param =>
    !documented.contains param

/-- A method has a result and no `@return` tag says anything about it. -/
def lacksReturn (doc : DocComment) (d : Declaration) : Bool :=
  d.kind = .method && !d.returnsVoid && !(doc.tagsNamed "return").any fun tag => !tag.body.isEmpty

/-! ## All checks -/

/-- Holds a doc comment against the declaration after it, in a file that declares the given types
and members. -/
def of (doc : DocComment) (declaration : Option Declaration) (types members : List String) :
    DocCheck :=
  match declaration with
  | none => {}
  | some d =>
    if fitsSubject doc d then
      { subjectMatched := true
        unmatchedTags :=
          unknownParams doc d ++ strayReturns doc d ++ unknownExceptions doc d ++
            unknownReferences doc types members
        unmatchedParams := if doc.inheritDoc then [] else undocumented doc d
        returnMissing := !doc.inheritDoc && lacksReturn doc d }
    else {}

end DocCheck

end JavaLint
