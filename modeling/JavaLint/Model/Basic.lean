import JavaLint.Error
import JavaLint.Model.Declaration
import JavaLint.Model.Scope
import JavaLint.Token.LineTable

/-!
# The model of a file

What the tree of a file says about its tokens and lines: the scope in which each lies, what each
token is, and the declarations in the order of the file.
-/

namespace JavaLint

/-- The scopes, classifications and declarations of one file. -/
structure Model where
  scopes : Array Scope
  /-- The number of the innermost scope of each token. -/
  tokenScopes : Array Nat
  /-- The number of the scope in which each line starts. -/
  lineScopes : Array Nat
  classes : Array Classification
  /-- In the order of their first tokens, and then of their names. -/
  declarations : List Declaration
deriving Repr

namespace Model

/-- The scope with a number. -/
def scope? (m : Model) (id : Nat) : Option Scope :=
  m.scopes[id]?

/-- The scope with a number, which is that of the file if there is no other. -/
def scope (m : Model) (id : Nat) : Scope :=
  (m.scope? id).getD .file

/-- The innermost scope that holds a token. -/
def scopeOf (m : Model) (token : Nat) : Except Error Scope :=
  match m.tokenScopes[token]? with
  | some id => .ok (m.scope id)
  | none => .error (.outOfRange token m.tokenScopes.size)

/-- The scope in which a line starts. -/
def lineScope? (m : Model) : Nat → Option Scope
  | 0 => none
  | n + 1 => (m.lineScopes[n]?).map m.scope

/-- What a token is. -/
def classification (m : Model) (token : Nat) : Except Error Classification :=
  match m.classes[token]? with
  | some c => .ok c
  | none => .error (.outOfRange token m.tokenScopes.size)

/-- The declaration that starts with a token. -/
def declarationAt? (m : Model) (token : Nat) : Option Declaration :=
  m.declarations.find? fun d => d.firstToken = token

/-- The names of the declared members. -/
def memberNames (m : Model) : List String :=
  (m.declarations.filter fun d => !d.kind.isType).map Declaration.name

/-- The names of the declared types. -/
def typeNames (m : Model) : List String :=
  (m.declarations.filter fun d => d.kind.isType).map Declaration.name

end Model

end JavaLint
