import JavaLint.Grammar.Form
import JavaLint.Grammar.Lookahead

/-!
# The grammar of Java files

The rules follow the shape that the checks need and no more: declarations, statements, parameter
lists and types have nodes of their own, while an expression is a flat sequence of words with
nodes only for lambdas, class bodies, array initializers, switch blocks, casts and pattern
variables.  Repetition is recursion of a rule at its own end.
-/

namespace JavaLint

/-- Which words end an expression besides `;` and closing brackets. -/
structure Stops where
  comma : Bool := false
  colon : Bool := false
  arrow : Bool := false
deriving DecidableEq, Repr

namespace Stops

/-- An expression on its own. -/
def alone : Stops := {}

/-- An expression in a list. -/
def inList : Stops := { comma := true }

/-- An expression before a colon. -/
def beforeColon : Stops := { colon := true }

/-- An expression in a label of a switch block. -/
def inLabel : Stops := { comma := true, colon := true, arrow := true }

end Stops

/-- The rules of the grammar. -/
inductive Rule where
  | items | nameTail | directives | directive
  | modifierTail | annotationUse | annotations
  | typeDecl | heritage | typeParams | typeParamList | bounds
  | type | typeTail | dims | typeArgs | typeArgList | typeList
  | classBody | enumBody | enumConstants | members | member
  | params | param | declarators
  | block | blockStatements | blockStatement | statement | forStatement
  | resources | catches | exceptionTypes | switchBlock | switchItems | switchCases
  | expr (stops : Stops) | exprTail (stops : Stops) (ternaries : Nat) (previous : Option Kind)
  | exprList | lambdaParamList | creator | creatorDims | arrayInit | elements
deriving DecidableEq, Repr

namespace Rule

open Form Lookahead

/-- A part of a Java file. -/
abbrev Part := Form Rule

/-! ## Parts without rules of their own -/

/-- A keyword that has to stand here. -/
def expectWord (k : Keyword) (what : String) : Part :=
  expect (.keyword k) what

/-- A name that has to stand here. -/
def expectName (what : String) : Part :=
  ite atName take (fail what)

/-- The end of a statement or declaration. -/
def semicolon : Part :=
  expect .semi "';'"

/-- What stands in braces; the closing brace is the next word once the inside has been read. -/
def braces (inside : Part) : Part :=
  expect .lBrace "'\x7b'" ++ inside ++ take

/-- What stands in parentheses. -/
def parens (inside : Part) : Part :=
  expect .lParen "'('" ++ inside ++ expect .rParen "')'"

/-- A part unless the next word is of the given kind. -/
def unlessAt (k : Kind) (part : Part) : Part :=
  ite (atKind k) empty part

/-- A further element of a list, after a comma. -/
def more (rule : Rule) : Part :=
  opt (atKind .comma) (take ++ call rule)

/-- A name with points in it. -/
def qualifiedName (what : String) : Part :=
  expectName what ++ call nameTail

/-- A declared name. -/
def declaredName (what : String) : Part :=
  ite atName (node .name take) (fail what)

/-- The modifiers of a declaration, if there are any. -/
def modifiers : Part :=
  opt atModifier (node .modifiers (call modifierTail))

/-- A list of arguments, or an expression in parentheses. -/
def arguments : Part :=
  parens (unlessAt .rParen (call exprList))

/-- An expression in parentheses. -/
def parenExpr : Part :=
  parens (call (expr .alone))

/-- An index in brackets, or an empty pair of brackets. -/
def brackets : Part :=
  take ++ unlessAt .rBrack (call (expr .alone)) ++ expect .rBrack "']'"

/-- A list of formal parameters. -/
def formalParams : Part :=
  node .paramList (parens (unlessAt .rParen (call params)))

/-- The exceptions that a method or constructor declares. -/
def throwsClause : Part :=
  opt (atWord .throwsKw) (node .throwsClause (take ++ call typeList))

/-- A type without dimensions. -/
def typeCore : Part :=
  call annotations ++
    ite (first fun k => k.isPrimitive || k = .keyword .voidKw) take
      (ite atName (take ++ call typeTail) (fail "type"))

/-- The body of a construct in braces, which runs to the closing brace. -/
def untilBrace (part : Part) : Part :=
  look fun
    | [] => fail "'\x7d'"
    | .rBrace :: _ => empty
    | _ => part

/-! ## Declarations -/

/-- A package declaration after its annotations. -/
def packageDecl : Part :=
  node .packageDecl (take ++ qualifiedName "package name" ++ semicolon)

/-- An import of a name, or of all names under it. -/
def importDecl : Part :=
  node .importDecl
    (take ++ eat (.keyword .staticKw) ++ qualifiedName "import name" ++
      opt (atKind .dot) (take ++ expect .mul "'*'") ++ semicolon)

/-- A module declaration after its annotations. -/
def moduleDecl : Part :=
  node .moduleDecl
    (eat (.keyword .openKw) ++ take ++ qualifiedName "module name" ++
      nest (node .moduleBody (braces (call directives))))

/-- The kind of the type declaration that starts here. -/
def typeDeclKind? : List Kind → Option NodeKind
  | .keyword .classKw :: _ => some .classDecl
  | .keyword .interfaceKw :: _ => some .interfaceDecl
  | .keyword .enumKw :: _ => some .enumDecl
  | .keyword .recordKw :: ks => if atName ks then some .recordDecl else none
  | .atSign :: ks => if atWord .interfaceKw ks then some .annotationTypeDecl else none
  | _ => none

/-- A type declaration of the given kind after its modifiers. -/
def typeDeclOf (kind : NodeKind) : Part :=
  node kind
    ((if kind = .annotationTypeDecl then take ++ take else take) ++ declaredName "type name" ++
      opt (atKind .lt) (call typeParams) ++
      (if kind = .recordDecl then formalParams else empty) ++
      call heritage ++ call (if kind = .enumDecl then enumBody else classBody))

/-- A constant with its arguments and its body. -/
def enumConstant : Part :=
  node .enumConstant
    (modifiers ++ declaredName "enum constant" ++ opt (atKind .lParen) arguments ++
      opt (atKind .lBrace) (call classBody))

/-- A constructor after its modifiers and type parameters. -/
def constructorDecl : Part :=
  node .constructorDecl
    (declaredName "constructor name" ++
      opt (atKind .lParen) (formalParams ++ throwsClause) ++ call block)

/-- A method after its result type. -/
def methodDecl : Part :=
  node .methodDecl
    (declaredName "method name" ++ formalParams ++ call dims ++ throwsClause ++
      opt (atWord .defaultKw)
        (take ++ ite (atKind .lBrace) (call arrayInit) (call (expr .alone))) ++
      ite (atKind .semi) take (call block))

/-- A field after its type. -/
def fieldDecl : Part :=
  node .fieldDecl (call declarators ++ semicolon)

/-- A member that starts with modifiers. -/
def declaredMember : Part :=
  adopt modifiers
    (ite atTypeDecl (call typeDecl)
      (adopt (opt (atKind .lt) (call typeParams))
        (ite atConstructor constructorDecl
          (adopt (call type) (ite atMethod methodDecl fieldDecl)))))

/-- The name of a parameter, or the receiver. -/
def paramName : Part :=
  look fun ks =>
    if atWord .thisKw ks then take
    else if atName ks && thenKind .dot ks then take ++ take ++ expectWord .thisKw "'this'"
    else declaredName "parameter name" ++ call dims

/-! ## Statements -/

/-- The variables of a local declaration with their type. -/
def localVar : Part :=
  node .localVarDecl (call type ++ call declarators ++ semicolon)

/-- A resource that is declared, or one that is only used. -/
def resource : Part :=
  ite (fun ks => atLocalModifier ks || atResource ks)
    (node .resource
      (modifiers ++ call type ++ declaredName "resource name" ++ expect .assign "'='" ++
        call (expr .alone)))
    (call (expr .alone))

/-- A handler for exceptions. -/
def catchClause : Part :=
  node .catchClause
    (take ++
      parens
        (node .param
          (modifiers ++ call type ++ call exceptionTypes ++ declaredName "exception parameter")) ++
      call block)

/-- A `try` statement. -/
def tryStatement : Part :=
  take ++
    opt (atKind .lParen)
      (node .resourceList (take ++ call resources ++ expect .rParen "')'")) ++
    call block ++ call catches ++ opt (atWord .finallyKw) (take ++ call block)

/-- What stands inside the node of a simple statement. -/
def statementBody (ks : List Kind) : Part :=
  match ks with
  | .semi :: _ => take
  | .keyword .ifKw :: _ =>
    take ++ parenExpr ++ call statement ++ opt (atWord .elseKw) (take ++ call statement)
  | .keyword .whileKw :: _ => take ++ parenExpr ++ call statement
  | .keyword .doKw :: _ =>
    take ++ call statement ++ expectWord .whileKw "'while'" ++ parenExpr ++ semicolon
  | .keyword .tryKw :: _ => tryStatement
  | .keyword .switchKw :: _ => take ++ parenExpr ++ call switchBlock
  | .keyword .synchronizedKw :: _ => take ++ parenExpr ++ call block
  | .keyword .returnKw :: _ | .keyword .throwKw :: _ =>
    take ++ unlessAt .semi (call (expr .alone)) ++ semicolon
  | .keyword .breakKw :: _ | .keyword .continueKw :: _ => take ++ opt atName take ++ semicolon
  | .keyword .assertKw :: _ =>
    take ++ call (expr .beforeColon) ++ opt (atKind .colon) (take ++ call (expr .alone)) ++
      semicolon
  | _ =>
    if atYield ks then take ++ call (expr .alone) ++ semicolon
    else if atLabel ks then take ++ take ++ call statement
    else call (expr .alone) ++ semicolon

/-- What stands in the parentheses of a `for` statement. -/
def forHeader : Part :=
  ite (fun ks => atLocalModifier ks || atLocalVar ks)
    (node .forInit (modifiers ++ call type ++ call declarators))
    (unlessAt .semi (call exprList)) ++
  ite (atKind .colon) (take ++ call (expr .alone))
    (semicolon ++ unlessAt .semi (call (expr .alone)) ++ semicolon ++
      unlessAt .rParen (call exprList))

/-- What stands after the arrow of a label. -/
def ruleBody : Part :=
  ite (fun ks => atKind .lBrace ks || atWord .throwKw ks) (call statement)
    (node .statement (call (expr .alone) ++ semicolon))

/-- A label of a switch block, with what belongs to it after an arrow. -/
def switchLabel : Part :=
  adopt (ite (atWord .caseKw) (take ++ call switchCases) take)
    (ite (atKind .arrow) (node .switchLabel take ++ ruleBody)
      (node .switchLabel (expect .colon "':' or '->'")))

/-! ## Expressions -/

/-- The expression ends before the words to come. -/
def endsExpr (stops : Stops) (ternaries : Nat) : List Kind → Bool
  | [] => true
  | .semi :: _ | .rParen :: _ | .rBrack :: _ | .rBrace :: _ => true
  | .comma :: _ => stops.comma
  | .arrow :: _ => stops.arrow
  | .colon :: _ => ternaries = 0 && stops.colon
  | _ => false

/-- The number of conditional operators that wait for their colon after the next word. -/
def ternariesAfter (ternaries : Nat) : Kind → Nat
  | .question => ternaries + 1
  | .colon => ternaries - 1
  | _ => ternaries

/-- The parameters of a lambda in parentheses. -/
def lambdaParams : Part :=
  node .lambdaParams
    (take ++ unlessAt .rParen (call lambdaParamList) ++ expect .rParen "')'")

/-- A cast. -/
def cast : Part :=
  node .cast (take ++ call type ++ call bounds ++ expect .rParen "')'")

/-- One step of an expression: a word, or a construct that starts here. -/
def exprStep (stops : Stops) (previous : Option Kind) (ks : List Kind) : Part :=
  match ks with
  | .arrow :: _ => take ++ opt (atKind .lBrace) (call block)
  | .lParen :: _ =>
    if !stops.arrow && atLambdaParams ks then lambdaParams
    else if atCast previous ks then cast
    else arguments
  | .dot :: .lt :: _ | .colonColon :: .lt :: _ => take ++ call typeArgs
  | .lBrack :: _ => brackets
  | .lBrace :: _ => call arrayInit
  | .atSign :: _ => call annotationUse
  | .identifier :: .arrow :: _ =>
    if stops.arrow then take
    else node .lambdaParams (node .param (declaredName "lambda parameter"))
  | .keyword .newKw :: _ => if previous = some .colonColon then take else call creator
  | .keyword .switchKw :: _ => take ++ parenExpr ++ call switchBlock
  | .keyword .instanceofKw :: _ =>
    take ++ eat (.keyword .finalKw) ++ call type ++
      opt atName (node .patternBinding (declaredName "pattern variable"))
  | .keyword k :: _ => if notInExpression k then fail "expression" else take
  | _ => take

/-- What an object or array creation consists of. -/
def creatorBody : Part :=
  take ++ opt (atKind .lt) (call typeArgs) ++ node .type typeCore ++
    ite (atKind .lBrack)
      (call creatorDims ++ opt (atKind .lBrace) (call arrayInit))
      (arguments ++ opt (atKind .lBrace) (call classBody))

/-! ## The rules -/

/-- What each rule describes. -/
def form : Rule → Part
  | items =>
    look fun ks =>
      if ks.isEmpty then empty
      else if atKind .semi ks then take ++ call items
      else if atWord .importKw ks then importDecl ++ call items
      else
        adopt modifiers
          (look fun ks =>
            if atWord .packageKw ks then packageDecl
            else if atModule ks then moduleDecl
            else call typeDecl) ++ call items
  | nameTail => opt (fun ks => atKind .dot ks && thenName ks) (take ++ take ++ call nameTail)
  | directives => unlessAt .rBrace (call directive ++ call directives)
  | directive =>
    look fun
      | [] | .lBrace :: _ | .rBrace :: _ => fail "';'"
      | .semi :: _ => take
      | _ => take ++ call directive
  | modifierTail =>
    opt atModifier (ite (atKind .atSign) (call annotationUse) take ++ call modifierTail)
  | annotationUse =>
    node .annotationUse (take ++ qualifiedName "annotation name" ++ opt (atKind .lParen) arguments)
  | annotations => opt (atKind .atSign) (call annotationUse ++ call annotations)
  | typeDecl =>
    look fun ks =>
      match typeDeclKind? ks with
      | some kind => typeDeclOf kind
      | none => fail "type declaration"
  | heritage => opt atHeritage (take ++ call typeList ++ call heritage)
  | typeParams => node .typeParams (take ++ call typeParamList ++ expect .gt "'>'")
  | typeParamList =>
    node .typeParam
      (call annotations ++ declaredName "type parameter" ++
        opt (atWord .extendsKw) (take ++ call type ++ call bounds)) ++
    more typeParamList
  | bounds => opt (atKind .bitAnd) (take ++ call type ++ call bounds)
  | type => node .type (typeCore ++ call dims)
  | typeTail =>
    opt (atKind .lt) (call typeArgs) ++
    opt (fun ks => atKind .dot ks && (thenName ks || thenKind .atSign ks))
      (take ++ call annotations ++ expectName "type name" ++ call typeTail)
  | dims => opt atDims (take ++ take ++ call dims)
  | typeArgs => node .typeArgs (take ++ unlessAt .gt (call typeArgList) ++ expect .gt "'>'")
  | typeArgList =>
    call annotations ++
    ite (atKind .question)
      (take ++
        opt (fun ks => atWord .extendsKw ks || atWord .superKw ks) (take ++ call type))
      (call type) ++
    more typeArgList
  | typeList => call type ++ more typeList
  | classBody => nest (node .classBody (braces (call members)))
  | enumBody =>
    nest (node .enumBody (braces (call enumConstants ++ eat .semi ++ call members)))
  | enumConstants => opt atEnumConstant (enumConstant ++ more enumConstants)
  | members => untilBrace (call member ++ call members)
  | member =>
    look fun ks =>
      if atKind .semi ks then take
      else if atInitializer ks then
        node .initializer (eat (.keyword .staticKw) ++ call block)
      else declaredMember
  | params => call param ++ more params
  | param =>
    node .param
      (modifiers ++ call type ++ call annotations ++ eat .ellipsis ++ paramName)
  | declarators =>
    node .variableDeclarator
      (declaredName "variable name" ++ call dims ++
        opt (atKind .assign)
          (take ++ ite (atKind .lBrace) (call arrayInit) (call (expr .inList)))) ++
    more declarators
  | block => nest (node .block (braces (call blockStatements)))
  | blockStatements => untilBrace (call blockStatement ++ call blockStatements)
  | blockStatement =>
    look fun ks =>
      if atLocalModifier ks || atTypeDecl ks then
        adopt modifiers (ite atTypeDecl (call typeDecl) localVar)
      else if atLocalVar ks then localVar
      else call statement
  | statement =>
    look fun ks =>
      if atKind .lBrace ks then call block
      else if atWord .forKw ks then call forStatement
      else nest (node .statement (statementBody ks))
  | forStatement => nest (node .forStmt (take ++ parens forHeader ++ call statement))
  | resources =>
    unlessAt .rParen (resource ++ opt (atKind .semi) (take ++ call resources))
  | catches => opt (atWord .catchKw) (catchClause ++ call catches)
  | exceptionTypes => opt (atKind .bitOr) (take ++ call type ++ call exceptionTypes)
  | switchBlock => nest (node .switchBlock (braces (call switchItems)))
  | switchItems =>
    untilBrace (ite atSwitchLabel switchLabel (call blockStatement) ++ call switchItems)
  | switchCases => call (expr .inLabel) ++ more switchCases
  | expr stops =>
    nest
      (node .expr
        (ite (endsExpr stops 0) (fail "expression") (call (exprTail stops 0 none))))
  | exprTail stops ternaries previous =>
    look fun ks =>
      match ks with
      | [] => empty
      | k :: _ =>
        if endsExpr stops ternaries ks then empty
        else
          exprStep stops previous ks ++
            call (exprTail stops (ternariesAfter ternaries k) (some k))
  | exprList => call (expr .inList) ++ more exprList
  | lambdaParamList =>
    ite (fun ks => atName ks && (thenKind .comma ks || thenKind .rParen ks))
      (node .param (declaredName "lambda parameter")) (call param) ++
    more lambdaParamList
  | creator => creatorBody
  | creatorDims => opt (atKind .lBrack) (brackets ++ call creatorDims)
  | arrayInit =>
    nest (node .arrayInit (take ++ call elements ++ expect .rBrace "'\x7d'"))
  | elements =>
    untilBrace (call (expr .inList) ++ opt (atKind .comma) (take ++ call elements))

end Rule

end JavaLint
