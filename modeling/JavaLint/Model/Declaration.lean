import JavaLint.Lexeme.Kind
import JavaLint.Tree.Forest

/-!
# Declarations

What is recorded of the types and members that a file declares: what a doc comment may speak of.
All of it is read off the node of the declaration, without blanks and comments.
-/

namespace JavaLint

/-- The kinds of declarations that are recorded. -/
inductive DeclKind where
  | classDecl | interfaceDecl | enumDecl | recordDecl | annotationType
  | constructor | method | field | enumConstant
deriving DecidableEq, Repr

namespace DeclKind

/-- The kind of declaration that a node is, if it is recorded. -/
def ofNode? : NodeKind → Option DeclKind
  | .classDecl => some classDecl
  | .interfaceDecl => some interfaceDecl
  | .enumDecl => some enumDecl
  | .recordDecl => some recordDecl
  | .annotationTypeDecl => some annotationType
  | .constructorDecl => some constructor
  | .methodDecl => some method
  | .fieldDecl => some field
  | .enumConstant => some enumConstant
  | _ => none

/-- The declaration of a type. -/
def isType : DeclKind → Bool
  | classDecl | interfaceDecl | enumDecl | recordDecl | annotationType => true
  | _ => false

/-- The declaration of something that is called. -/
def isExecutable : DeclKind → Bool
  | constructor | method => true
  | _ => false

/-- The declaration of something that has a value. -/
def isVariable : DeclKind → Bool
  | field | enumConstant => true
  | _ => false

end DeclKind

/-- A declared type or member. -/
structure Declaration where
  kind : DeclKind
  name : String := ""
  /-- The number of the token that is the name. -/
  nameToken : Nat := 0
  /-- The number of the first code token, modifiers included. -/
  firstToken : Nat := 0
  params : List String := []
  typeParams : List String := []
  /-- The result type of a method. -/
  returnType : Option String := none
  throwsTypes : List String := []
  recordComponents : List String := []
deriving DecidableEq, Repr

/-- The declaration is a method that gives no result. -/
def Declaration.returnsVoid (d : Declaration) : Bool :=
  d.returnType = some "void"

namespace Forest

/-- The text of all leaves. -/
def text (f : Forest Lexeme) : String :=
  String.join (f.leaves.map Lexeme.text)

/-- The text of all leaves that are code. -/
def codeText (f : Forest Lexeme) : String :=
  String.join ((f.leaves.filter fun l => !l.isTrivia).map Lexeme.text)

/-- The names declared by the nodes of the given kind, where each declares at most one. -/
def declaredNames (item : NodeKind) (f : Forest Lexeme) : List String :=
  (f.children item).filterMap fun inside => (inside.child? .name).map text

/-- The names declared in the first list of the given kind. -/
def namesIn (list item : NodeKind) (f : Forest Lexeme) : List String :=
  match f.child? list with
  | some inside => inside.declaredNames item
  | none => []

/-- The types of the first `throws` clause. -/
def throwsTypes (f : Forest Lexeme) : List String :=
  match f.child? .throwsClause with
  | some clause => (clause.children .type).map codeText
  | none => []

/-- The name of an annotation, from what stands inside its node: the code up to its arguments,
without the sign. -/
def annotationName (inside : Forest Lexeme) : String :=
  let code := inside.ownLeaves.filter fun l => !l.isTrivia && l.kind != .atSign
  String.join ((code.takeWhile fun l => l.kind != .lParen).map Lexeme.text)

/-- A statement with a label, from what stands inside its node: its first word is an
identifier. -/
def startsWithLabel (inside : Forest Lexeme) : Bool :=
  match inside.ownLeaves.find? fun l => !l.isTrivia with
  | some l => l.kind = .identifier
  | none => false

end Forest

/-- The declaration that a node makes of a name, from what stands inside the node. -/
def Declaration.ofNode (kind : DeclKind) (inside : Forest Lexeme) (name : String)
    (nameToken firstToken : Nat) : Declaration where
  kind := kind
  name := name
  nameToken := nameToken
  firstToken := firstToken
  params := if kind = .recordDecl then [] else inside.namesIn .paramList .param
  typeParams := inside.namesIn .typeParams .typeParam
  returnType := if kind = .method then (inside.child? .type).map Forest.codeText else none
  throwsTypes := inside.throwsTypes
  recordComponents := if kind = .recordDecl then inside.namesIn .paramList .param else []

end JavaLint
