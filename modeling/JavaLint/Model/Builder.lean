import JavaLint.Model.Basic
import JavaLint.Tree.Parse

/-!
# Building the model

The model is built by one walk over the tree, from top to bottom.  The walk knows the path of
nodes that it is in.  Every leaf is held against the token that the line table has for it, so a
tree of another file is noticed.

* A braced node opens a scope when it is entered.  The scope starts at the next code token and
  ends at the last code token before the node is left.
* A node that declares names opens a `Pending` entry.  Modifiers, annotations and names are
  collected there, and written to the names when the node is left, so the order in which they
  come does not matter.

A walk that fails keeps what it has done so far.
-/

namespace JavaLint

/-- A declaration whose node is being walked. -/
structure Pending where
  /-- The first code token in the node. -/
  firstToken : Option Nat := none
  /-- The modifiers, as they are written. -/
  modifiers : List Keyword := []
  /-- The names of the annotations. -/
  annotations : List String := []
  /-- The declared names: their tokens and roles. -/
  names : List (Nat × Role) := []
deriving DecidableEq, Repr

/-- A node around the place of the walk, with what stands inside it. -/
structure Ancestor where
  kind : NodeKind
  inside : Forest Lexeme
deriving DecidableEq, Repr

/-- The nodes around a place, the innermost first. -/
abbrev Ancestry := List Ancestor

namespace Ancestry

/-- The kind of the innermost node. -/
def kind (path : Ancestry) : NodeKind :=
  match path with
  | [] => .sourceFile
  | a :: _ => a.kind

end Ancestry

namespace NodeKind

/-- The node declares names, to which modifiers and annotations may belong. -/
def declaresNames : NodeKind → Bool
  | .methodDecl | .constructorDecl | .fieldDecl | .enumConstant | .param | .localVarDecl
  | .forInit | .resource | .patternBinding => true
  | k => k.isTypeDecl

/-- The role of the name that a node declares directly. -/
def nameRole? : NodeKind → Option Role
  | .classDecl => some .className
  | .interfaceDecl => some .interfaceName
  | .enumDecl => some .enumName
  | .recordDecl => some .recordName
  | .annotationTypeDecl => some .annotationName
  | .constructorDecl => some .constructorName
  | .methodDecl => some .methodName
  | .enumConstant => some .fieldName
  | .param => some .parameterName
  | .resource | .patternBinding => some .variableName
  | _ => none

/-- The role of the names that a node declares with its declarators. -/
def variableRole? : NodeKind → Option Role
  | .fieldDecl => some .fieldName
  | .localVarDecl => some .variableName
  | .forInit => some .forVariableName
  | _ => none

end NodeKind

/-- The kind of the node that declares a name and the role of the name, from the path of the node
of the name.  Names of type parameters have no role. -/
def nameRole? : Ancestry → Option (NodeKind × Role)
  | declarator :: owner :: _ =>
    if declarator.kind = .variableDeclarator then owner.kind.variableRole?.map (owner.kind, ·)
    else declarator.kind.nameRole?.map (declarator.kind, ·)
  | [owner] => owner.kind.nameRole?.map (owner.kind, ·)
  | [] => none

/-- Enum constants and the fields of interfaces and annotation types are constants without being
declared so. -/
def isImplicitConstant (kind : NodeKind) (path : Ancestry) : Bool :=
  match kind, path with
  | .enumConstant, _ => true
  | .fieldDecl, body :: owner :: _ =>
    body.kind = .classBody && (owner.kind = .interfaceDecl || owner.kind = .annotationTypeDecl)
  | _, _ => false

/-- The modifiers that a constant has without being declared so. -/
def implicitModifiers : List Keyword :=
  [.publicKw, .staticKw, .finalKw]

/-- The code token has the kind of an operator, but the tree shows that it is none: angle brackets
and their company in types, and the colons of labels. -/
def isNoOperator (kind : Kind) (parent : Ancestor) : Bool :=
  match kind with
  | .lt | .gt | .question =>
    parent.kind = .typeArgs || parent.kind = .typeParams || parent.kind = .typeParam
  | .bitAnd =>
    parent.kind = .typeArgs || parent.kind = .typeParams || parent.kind = .typeParam ||
      parent.kind = .cast
  | .colon =>
    parent.kind = .switchLabel || (parent.kind = .statement && parent.inside.startsWithLabel)
  | _ => false

/-- A model that is being built over the tokens of a file. -/
structure Builder where
  table : LineTable
  scopes : Array Scope
  /-- The numbers of the scopes around the place of the walk, the innermost first. -/
  stack : List Nat
  tokenScopes : Array Nat
  classes : Array Classification
  /-- The declarations around the place of the walk, the innermost first. -/
  pending : List Pending
  /-- The last code token. -/
  lastCode : Option Nat
  declarations : List Declaration
  /-- The number of leaves that the walk has met. -/
  leaves : Nat
  /-- A tree has been walked, or at least begun. -/
  walked : Bool
deriving Repr

namespace Builder

/-- The builder for a table, before the walk: every code token has the coarse role of its kind. -/
def ofTable (table : LineTable) : Builder where
  table := table
  scopes := #[.file]
  stack := [0]
  tokenScopes := Array.replicate table.count 0
  classes := table.tokens.map fun t => if t.isCode then { role := Role.ofKind t.kind } else {}
  pending := []
  lastCode := none
  declarations := []
  leaves := 0
  walked := false

/-- The number of the innermost scope. -/
def currentScope (b : Builder) : Nat :=
  b.stack.head?.getD 0

/-- What a step of the walk answers: the builder after it, or the fault and the builder as it was
left behind. -/
abbrev Step := Except (Fault × Builder) Builder

/-- Changes the innermost pending declaration. -/
def updatePending (b : Builder) (f : Pending → Pending) : Builder :=
  match b.pending with
  | [] => b
  | p :: ps => { b with pending := f p :: ps }

/-! ## Entering a node -/

/-- Opens the scope of a braced node. -/
def openScope (b : Builder) (kind : NodeKind) : Builder :=
  let id := b.scopes.size
  { b with
    scopes := b.scopes.push
      { id := id, parent := some b.currentScope, depth := b.stack.length, kind := kind.scopeKind }
    stack := id :: b.stack }

/-- An annotation in a modifier list belongs to the declaration of the list, if there is one. -/
def noteAnnotations (b : Builder) (path : Ancestry) (inside : Forest Lexeme) : Builder :=
  match path with
  | list :: owner :: _ =>
    if list.kind = .modifiers && owner.kind.declaresNames then
      b.updatePending fun p => { p with annotations := p.annotations ++ [inside.annotationName] }
    else b
  | _ => b

/-- Enters a node. -/
def enter (b : Builder) (path : Ancestry) (kind : NodeKind) (inside : Forest Lexeme) : Builder :=
  let b := if kind.isBraced then b.openScope kind else b
  let b := if kind = .annotationUse then b.noteAnnotations path inside else b
  if kind.declaresNames then { b with pending := {} :: b.pending } else b

/-! ## Meeting a leaf -/

/-- The first code token in every scope and declaration that waits for one. -/
def settle (b : Builder) (token : Nat) : Builder :=
  { b with
    pending := b.pending.map fun p => { p with firstToken := p.firstToken.or (some token) }
    scopes := b.stack.foldl (fun scopes id =>
      if id = 0 then scopes
      else scopes.modify id fun s => { s with opening := s.opening.or (some token) }) b.scopes
    lastCode := some token }

/-- Adds a name to the innermost pending declaration, which is that of its owner. -/
def noteName (b : Builder) (owner : NodeKind) (token : Nat) (role : Role) : Step :=
  match b.pending with
  | [] => .error (.noDeclaration owner.label, b)
  | p :: ps => .ok { b with pending := { p with names := p.names ++ [(token, role)] } :: ps }

/-- What a code token means by the node in which it stands. -/
def classify (b : Builder) (path : Ancestry) (token : Token) : Step :=
  match path with
  | [] => .ok b
  | parent :: above =>
    match parent.kind with
    | .name =>
      match nameRole? above with
      | some (owner, role) => b.noteName owner token.number role
      | none => .ok b
    | .modifiers =>
      match token.kind with
      | .keyword k =>
        if (Ancestry.kind above).declaresNames && k.isModifier then
          .ok (b.updatePending fun p => { p with modifiers := p.modifiers ++ [k] })
        else .ok b
      | _ => .ok b
    | _ =>
      if isNoOperator token.kind parent then
        .ok { b with classes := b.classes.modify token.number fun c => { c with role := .other } }
      else .ok b

/-- Meets the next leaf.  A line break and a leaf without characters have no token. -/
def visit (b : Builder) (path : Ancestry) (leaf : Lexeme) : Step :=
  match b.table.ofLexeme? b.leaves with
  | none =>
    if leaf.kind != .newline && !leaf.text.isEmpty then .error (.noEntry leaf.text, b)
    else .ok { b with leaves := b.leaves + 1 }
  | some number =>
    match b.table.tokens[number]? with
    | none => .error (.noEntry leaf.text, b)
    | some token =>
      if token.text = leaf.text then
        let b := { b with
          tokenScopes := b.tokenScopes.setIfInBounds number b.currentScope
          leaves := b.leaves + 1 }
        if token.isCode then (b.settle number).classify path token else .ok b
      else .error (.mismatch leaf.text token.text, b)

/-! ## Leaving a node -/

/-- Writes what was collected for a declaration to its names. -/
def writeNames (b : Builder) (modifiers : List Keyword) (p : Pending) : Builder :=
  { b with
    classes := p.names.foldl (fun classes name =>
      classes.setIfInBounds name.1
        { role := name.2, modifiers := modifiers, annotations := p.annotations }) b.classes }

/-- Records the declarations of a node, if it is of a kind that is recorded. -/
def record (b : Builder) (kind : NodeKind) (inside : Forest Lexeme) (p : Pending) : Step :=
  match DeclKind.ofNode? kind with
  | none => .ok b
  | some declKind =>
    match p.firstToken with
    | none => .error (.noTokens, b)
    | some first =>
      .ok { b with
        declarations := b.declarations ++ p.names.map fun name =>
          .ofNode declKind inside ((b.table.tokens[name.1]?.map Token.text).getD "") name.1 first }

/-- Finishes the innermost pending declaration. -/
def closePending (b : Builder) (path : Ancestry) (kind : NodeKind) (inside : Forest Lexeme) : Step :=
  match b.pending with
  | [] => .ok b
  | p :: ps =>
    let modifiers :=
      if isImplicitConstant kind path then p.modifiers ++ implicitModifiers else p.modifiers
    ({ b with pending := ps }.writeNames modifiers p).record kind inside p

/-- The two tokens stand on one line. -/
def onOneLine (b : Builder) (first last : Nat) : Bool :=
  b.table.tokens[first]?.map Token.line = b.table.tokens[last]?.map Token.line

/-- Closes the innermost scope, which must not be that of the file. -/
def closeScope (b : Builder) : Step :=
  let id := b.currentScope
  if id = 0 then .error (.noScope, { b with stack := b.stack.tail })
  else
    let opening := (b.scopes[id]?).bind Scope.opening
    let b := { b with
      stack := b.stack.tail
      scopes := b.scopes.modify id fun s => { s with closing := b.lastCode } }
    match opening, b.lastCode with
    | some first, some last =>
      .ok { b with
        scopes := b.scopes.modify id fun s => { s with oneLine := b.onOneLine first last } }
    | _, _ => .error (.noBraces, b)

/-- Leaves a node. -/
def leave (b : Builder) (path : Ancestry) (kind : NodeKind) (inside : Forest Lexeme) : Step :=
  let declared := if kind.declaresNames then b.closePending path kind inside else .ok b
  declared.bind fun b => if kind.isBraced then b.closeScope else .ok b

/-! ## The walk -/

/-- Walks over the trees of a forest that stand inside the innermost node of the path. -/
def walkForest (path : Ancestry) : Forest Lexeme → Builder → Step
  | .nil, b => .ok b
  | .leaf l rest, b => (b.visit path l).bind (walkForest path rest)
  | .node kind inside rest, b =>
    (walkForest (⟨kind, inside⟩ :: path) inside (b.enter path kind inside)).bind fun b =>
      (b.leave path kind inside).bind (walkForest path rest)

/-- The end of a walk, where all declarations are finished and only the file itself is left
open. -/
def closed (b : Builder) : Step :=
  if !b.pending.isEmpty then .error (.openDeclarations, b)
  else if b.stack.length ≠ 1 then .error (.openScopes, b)
  else .ok b

/-- Walks over the trees of a file, unless a walk has been made before. -/
def walk (b : Builder) (trees : Forest Lexeme) : Step :=
  if b.walked then .error (.walkedTwice, b)
  else (walkForest [⟨.sourceFile, trees⟩] trees { b with walked := true }).bind closed

/-! ## The finished model -/

/-- Declarations come in the order of their first tokens, and then of their names. -/
def declaredBefore (d e : Declaration) : Bool :=
  d.firstToken < e.firstToken || (d.firstToken = e.firstToken && d.nameToken ≤ e.nameToken)

/-- The scopes in which lines start.  An empty line belongs to the scope of the token before. -/
def lineScopesFrom (scopes : Array Nat) (carried : Nat) : List Line → List Nat
  | [] => []
  | line :: lines =>
    if line.start < line.stop then
      (scopes[line.start]?).getD 0 ::
        lineScopesFrom scopes ((scopes[line.stop - 1]?).getD 0) lines
    else carried :: lineScopesFrom scopes carried lines

/-- The model that was built. -/
def finish (b : Builder) : Except Fault Model :=
  if b.walked then
    .ok {
      scopes := b.scopes
      tokenScopes := b.tokenScopes
      lineScopes := (lineScopesFrom b.tokenScopes 0 b.table.lines).toArray
      classes := b.classes
      declarations := b.declarations.mergeSort declaredBefore }
  else .error .notWalked

end Builder

/-- The model of a file from its table and its trees. -/
def Model.build (table : LineTable) (trees : Forest Lexeme) : Except Error Model :=
  match (Builder.ofTable table).walk trees with
  | .error (fault, _) => .error (.invariant fault)
  | .ok b =>
    match b.finish with
    | .error fault => .error (.invariant fault)
    | .ok model => .ok model

end JavaLint
