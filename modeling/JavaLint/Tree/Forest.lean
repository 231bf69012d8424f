/-!
# Ordered forests with labelled nodes

A `Forest` is a sequence of trees, each of them a leaf or a node with a forest inside.  The type
is one plain inductive type: `leaf a rest` and `node k inside rest` put a tree in front of the
forest `rest`, so recursion and induction need no detour through lists of trees.

The view of a forest is the list of its leaves in document order.
-/

namespace JavaLint

/-- The kinds of inner nodes of the tree of a file. -/
inductive NodeKind where
  | sourceFile | packageDecl | importDecl | moduleDecl | moduleBody
  | modifiers | annotationUse
  | classDecl | interfaceDecl | enumDecl | recordDecl | annotationTypeDecl
  | classBody | enumBody | enumConstant
  | typeParams | typeParam | type | typeArgs
  | fieldDecl | variableDeclarator | methodDecl | constructorDecl | paramList | param
  | throwsClause | initializer
  | block | statement | localVarDecl | forStmt | forInit | resourceList | resource | catchClause
  | switchBlock | switchLabel
  | expr | lambdaParams | patternBinding | arrayInit | name | cast
deriving DecidableEq, Repr

namespace NodeKind

/-- The node stands between a pair of braces. -/
def isBraced : NodeKind → Bool
  | classBody | enumBody | block | switchBlock | arrayInit | moduleBody => true
  | _ => false

/-- The node declares a type. -/
def isTypeDecl : NodeKind → Bool
  | classDecl | interfaceDecl | enumDecl | recordDecl | annotationTypeDecl => true
  | _ => false

/-- The kind as error messages call it. -/
def label : NodeKind → String
  | sourceFile => "SOURCE_FILE"
  | packageDecl => "PACKAGE_DECL"
  | importDecl => "IMPORT_DECL"
  | moduleDecl => "MODULE_DECL"
  | moduleBody => "MODULE_BODY"
  | modifiers => "MODIFIERS"
  | annotationUse => "ANNOTATION"
  | classDecl => "CLASS_DECL"
  | interfaceDecl => "INTERFACE_DECL"
  | enumDecl => "ENUM_DECL"
  | recordDecl => "RECORD_DECL"
  | annotationTypeDecl => "ANNOTATION_TYPE_DECL"
  | classBody => "CLASS_BODY"
  | enumBody => "ENUM_BODY"
  | enumConstant => "ENUM_CONSTANT"
  | typeParams => "TYPE_PARAMS"
  | typeParam => "TYPE_PARAM"
  | type => "TYPE"
  | typeArgs => "TYPE_ARGS"
  | fieldDecl => "FIELD_DECL"
  | variableDeclarator => "VARIABLE_DECLARATOR"
  | methodDecl => "METHOD_DECL"
  | constructorDecl => "CONSTRUCTOR_DECL"
  | paramList => "PARAM_LIST"
  | param => "PARAM"
  | throwsClause => "THROWS_CLAUSE"
  | initializer => "INITIALIZER"
  | block => "BLOCK"
  | statement => "STATEMENT"
  | localVarDecl => "LOCAL_VAR_DECL"
  | forStmt => "FOR_STMT"
  | forInit => "FOR_INIT"
  | resourceList => "RESOURCE_LIST"
  | resource => "RESOURCE"
  | catchClause => "CATCH_CLAUSE"
  | switchBlock => "SWITCH_BLOCK"
  | switchLabel => "SWITCH_LABEL"
  | expr => "EXPR"
  | lambdaParams => "LAMBDA_PARAMS"
  | patternBinding => "PATTERN_BINDING"
  | arrayInit => "ARRAY_INIT"
  | name => "NAME"
  | cast => "CAST"

end NodeKind

/-- A sequence of trees over leaves of type `α`. -/
inductive Forest (α : Type) where
  /-- The empty sequence. -/
  | nil
  /-- A leaf before the other trees. -/
  | leaf (a : α) (rest : Forest α)
  /-- A node with the trees inside it, before the other trees. -/
  | node (kind : NodeKind) (inside rest : Forest α)
deriving DecidableEq, Repr

namespace Forest

variable {α β : Type}

/-- One sequence of trees after the other. -/
def append : Forest α → Forest α → Forest α
  | nil, g => g
  | leaf a rest, g => leaf a (append rest g)
  | node k inside rest, g => node k inside (append rest g)

instance : Append (Forest α) := ⟨append⟩

/-- The leaves in document order. -/
def leaves : Forest α → List α
  | nil => []
  | leaf a rest => a :: leaves rest
  | node _ inside rest => leaves inside ++ leaves rest

/-- A sequence of leaves before the trees of a forest. -/
def withLeaves (as : List α) (f : Forest α) : Forest α :=
  as.foldr leaf f

/-- Makes the trees of `head` the first children of the node with which the other forest starts.
If that one starts with no node, the trees just come first. -/
def adopt (head : Forest α) : Forest α → Forest α
  | node k inside rest => node k (head ++ inside) rest
  | f => head ++ f

/-- The leaves of the forest that lie in no node. -/
def ownLeaves : Forest α → List α
  | nil => []
  | leaf a rest => a :: ownLeaves rest
  | node _ _ rest => ownLeaves rest

/-- The forests inside the nodes of the given kind at the top of the forest. -/
def children (k : NodeKind) : Forest α → List (Forest α)
  | nil => []
  | leaf _ rest => children k rest
  | node k' inside rest => if k' = k then inside :: children k rest else children k rest

/-- The forest inside the first node of the given kind at the top of the forest. -/
def child? (k : NodeKind) (f : Forest α) : Option (Forest α) :=
  (f.children k).head?

@[simp] theorem nil_append (g : Forest α) : nil ++ g = g := rfl

@[simp] theorem leaf_append (a : α) (f g : Forest α) : leaf a f ++ g = leaf a (f ++ g) := rfl

@[simp] theorem node_append (k : NodeKind) (i f g : Forest α) :
    node k i f ++ g = node k i (f ++ g) := rfl

/-- The leaves of two sequences are those of the one and then those of the other. -/
@[simp] theorem leaves_append (f g : Forest α) : (f ++ g).leaves = f.leaves ++ g.leaves := by
  induction f with
  | nil => rfl
  | leaf a rest ih => simp [leaves, ih]
  | node k inside rest _ ih => simp [leaves, ih]

/-- Leaves put in front come first in the view. -/
@[simp] theorem leaves_withLeaves (as : List α) (f : Forest α) :
    (withLeaves as f).leaves = as ++ f.leaves := by
  induction as with
  | nil => rfl
  | cons a as ih => simpa [withLeaves, leaves] using ih

/-- Adoption moves trees into a node and keeps the order of the leaves. -/
@[simp] theorem leaves_adopt (head f : Forest α) :
    (head.adopt f).leaves = head.leaves ++ f.leaves := by
  cases f <;> simp [adopt, leaves]

end Forest

end JavaLint
