import JavaLint.Lexeme.Kind
import JavaLint.Tree.Forest

/-!
# Leaves of trees

The leaves of a tree are lexemes.  For a reader of the tree the many kinds of lexemes fall into a
few kinds of leaves.  `Forest.outline` lists a tree from top to bottom.
-/

namespace JavaLint

/-- The kinds of leaves. -/
inductive LeafKind where
  | whitespace | newline | comment | docComment | ident | keyword | literal
  | lCurly | rCurly | lParen | rParen | lBrack | rBrack | semicolon | comma | dot | atSign
  | operator | punct
deriving DecidableEq, Repr

/-- The kind of the leaf that a lexeme makes. -/
def Kind.leafKind : Kind → LeafKind
  | .whitespace => .whitespace
  | .newline => .newline
  | .lineComment | .blockComment => .comment
  | .docComment => .docComment
  | .identifier => .ident
  | .keyword _ => .keyword
  | .decimalLiteral | .hexLiteral | .octLiteral | .binaryLiteral | .floatLiteral
  | .hexFloatLiteral | .charLiteral | .stringLiteral | .textBlock | .boolLiteral
  | .nullLiteral => .literal
  | .lBrace => .lCurly
  | .rBrace => .rCurly
  | .lParen => .lParen
  | .rParen => .rParen
  | .lBrack => .lBrack
  | .rBrack => .rBrack
  | .semi => .semicolon
  | .comma => .comma
  | .dot => .dot
  | .atSign => .atSign
  | .ellipsis | .colonColon | .arrow => .punct
  | _ => .operator

/-- An entry of the outline of a tree. -/
inductive OutlineEntry where
  | node (kind : NodeKind)
  | leaf (kind : LeafKind) (text : String)
deriving DecidableEq, Repr

/-- The nodes and leaves from top to bottom, each with its depth. -/
def Forest.outline (depth : Nat) : Forest Lexeme → List (Nat × OutlineEntry)
  | .nil => []
  | .leaf l rest => (depth, .leaf l.kind.leafKind l.text) :: outline depth rest
  | .node kind inside rest =>
    (depth, .node kind) :: (outline (depth + 1) inside ++ outline depth rest)

end JavaLint
