import JavaLint.Lexeme.Kind

/-!
# Roles of tokens

The role of a token is what the format rules ask about it.  The kind of a lexeme gives a first,
coarse role; declared names get their own roles only from the tree.
-/

namespace JavaLint

/-- What a token is for the format rules. -/
inductive Role where
  | keyword | stringLiteral | numberLiteral | boolLiteral | nullLiteral
  | semicolon | comma | dot | lParen | rParen | lBracket | rBracket | lBrace | rBrace
  | plainName
  | className | interfaceName | enumName | recordName | annotationName
  | constructorName | methodName | fieldName | forVariableName | variableName | parameterName
  | lowOperator | otherOperator
  | other
deriving DecidableEq, Repr, Inhabited

namespace Role

/-- The coarse role that the kind of a lexeme gives.  The operators of low precedence are those of
assignment, choice, logic, bits, equality and order. -/
def ofKind : Kind → Role
  | .keyword _ => keyword
  | .identifier => plainName
  | .stringLiteral | .charLiteral | .textBlock => stringLiteral
  | .decimalLiteral | .hexLiteral | .octLiteral | .binaryLiteral | .floatLiteral
  | .hexFloatLiteral => numberLiteral
  | .boolLiteral => boolLiteral
  | .nullLiteral => nullLiteral
  | .semi => semicolon
  | .comma => comma
  | .dot => dot
  | .lParen => lParen
  | .rParen => rParen
  | .lBrack => lBracket
  | .rBrack => rBracket
  | .lBrace => lBrace
  | .rBrace => rBrace
  | .assign | .addAssign | .subAssign | .mulAssign | .divAssign | .andAssign | .orAssign
  | .xorAssign | .modAssign | .lShiftAssign | .rShiftAssign | .urShiftAssign
  | .question | .colon | .and | .or | .bitAnd | .bitOr | .caret | .equal | .notEqual
  | .gt | .lt | .le | .ge => lowOperator
  | .bang | .tilde | .inc | .dec | .add | .sub | .mul | .div | .mod => otherOperator
  | .arrow | .colonColon | .atSign | .ellipsis
  | .whitespace | .newline | .lineComment | .blockComment | .docComment => other

/-- The name of a declared type. -/
def isTypeName : Role → Bool
  | className | interfaceName | enumName | recordName | annotationName => true
  | _ => false

/-- The name of anything that is declared. -/
def isDeclaredName : Role → Bool
  | constructorName | methodName | fieldName | forVariableName | variableName
  | parameterName => true
  | role => role.isTypeName

/-- The role as findings call it. -/
def describe : Role → String
  | className => "class name"
  | interfaceName => "interface name"
  | enumName => "enum name"
  | recordName => "record name"
  | annotationName => "annotation type name"
  | constructorName => "constructor name"
  | methodName => "method name"
  | fieldName => "field name"
  | forVariableName => "loop variable name"
  | variableName => "variable name"
  | parameterName => "parameter name"
  | lowOperator | otherOperator => "operator"
  | keyword => "keyword"
  | _ => "token"

/-- The role as reports call it. -/
def name : Role → String
  | keyword => "Keyword"
  | stringLiteral => "StringLiteral"
  | numberLiteral => "NumberLiteral"
  | boolLiteral => "BoolLiteral"
  | nullLiteral => "NullLiteral"
  | semicolon => "Semicolon"
  | comma => "Comma"
  | dot => "Dot"
  | lParen => "LParen"
  | rParen => "RParen"
  | lBracket => "LBracket"
  | rBracket => "RBracket"
  | lBrace => "LBrace"
  | rBrace => "RBrace"
  | plainName => "IdentifierUnclassified"
  | className => "ClassName"
  | interfaceName => "InterfaceName"
  | enumName => "EnumName"
  | recordName => "RecordName"
  | annotationName => "AnnotationName"
  | constructorName => "ConstructorName"
  | methodName => "MethodName"
  | fieldName => "FieldName"
  | forVariableName => "ForVariableName"
  | variableName => "VariableName"
  | parameterName => "ParameterName"
  | lowOperator => "LowPrecedenceOperator"
  | otherOperator => "OtherOperator"
  | other => "Other"

/-- Every role. -/
def all : List Role :=
  [keyword, stringLiteral, numberLiteral, boolLiteral, nullLiteral, semicolon, comma, dot, lParen,
   rParen, lBracket, rBracket, lBrace, rBrace, plainName, className, interfaceName, enumName,
   recordName, annotationName, constructorName, methodName, fieldName, forVariableName,
   variableName, parameterName, lowOperator, otherOperator, other]

/-- The role that reports call so. -/
def ofName? (name : String) : Option Role :=
  all.find? fun role => role.name = name

end Role

/-! ## Modifiers

The modifiers of a declaration are the list of its modifier keywords as they are written.  Two
views sort them into fixed orders: those that govern access and inheritance, and all others. -/

/-- The modifiers that govern access and inheritance, in their order. -/
def accessKeywords : List Keyword :=
  [.publicKw, .protectedKw, .privateKw, .defaultKw, .abstractKw, .sealedKw, .nonSealedKw]

/-- The other modifiers, in their order. -/
def otherKeywords : List Keyword :=
  [.finalKw, .staticKw, .strictfpKw, .nativeKw, .synchronizedKw, .transientKw, .volatileKw]

/-- The members of a fixed order that are among the written words. -/
def selectKeywords (order written : List Keyword) : List Keyword :=
  order.filter written.contains

/-- What the tree adds to the coarse role of a token. -/
structure Classification where
  /-- The final role. -/
  role : Role := .other
  /-- The modifiers of the declaration whose name the token is, as they are written. -/
  modifiers : List Keyword := []
  /-- The names of the annotations of that declaration. -/
  annotations : List String := []
deriving DecidableEq, Repr, Inhabited

namespace Classification

/-- The words for access and inheritance. -/
def access (c : Classification) : List Keyword :=
  selectKeywords accessKeywords c.modifiers

/-- The other modifiers. -/
def others (c : Classification) : List Keyword :=
  selectKeywords otherKeywords c.modifiers

/-- A name that does not change or belongs to its type. -/
def isStaticOrFinal (c : Classification) : Bool :=
  c.modifiers.contains .staticKw || c.modifiers.contains .finalKw

end Classification

end JavaLint
