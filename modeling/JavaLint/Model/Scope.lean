import JavaLint.Tree.Forest

/-!
# Scopes

A scope is what stands between a pair of braces; the file itself is a scope without braces, with
number zero.
-/

namespace JavaLint

/-- What the braces of a scope enclose. -/
inductive ScopeKind where
  | file | typeBody | block | switchBlock | arrayInitializer | moduleBody
deriving DecidableEq, Repr

/-- The kind of the scope of a braced node. -/
def NodeKind.scopeKind : NodeKind → ScopeKind
  | .classBody | .enumBody => .typeBody
  | .switchBlock => .switchBlock
  | .arrayInit => .arrayInitializer
  | .moduleBody => .moduleBody
  | _ => .block

/-- A scope. -/
structure Scope where
  /-- The number of the scope, in the order of the opening braces. -/
  id : Nat
  /-- The scope around it. -/
  parent : Option Nat
  /-- The number of scopes around it. -/
  depth : Nat
  kind : ScopeKind
  /-- The number of the token `{`. -/
  opening : Option Nat := none
  /-- The number of the token `}`. -/
  closing : Option Nat := none
  /-- Both braces stand on one line. -/
  oneLine : Bool := false
deriving DecidableEq, Repr

namespace Scope

/-- The scope of the whole file. -/
def file : Scope where
  id := 0
  parent := none
  depth := 0
  kind := .file

/-- There is nothing between the braces. -/
def isEmpty (s : Scope) : Bool :=
  match s.opening, s.closing with
  | some opening, some closing => closing = opening + 1
  | _, _ => false

end Scope

end JavaLint
