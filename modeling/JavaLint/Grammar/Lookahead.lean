import JavaLint.Lexeme.Kind

/-!
# Looking ahead

The tests by which the grammar chooses between its forms.  Each is a function of the words to
come.  The longest look is for a type: `afterType?` skips a type that starts at the first word,
in a more generous notion of type than the grammar itself has, and answers the words after it.
-/

namespace JavaLint.Lookahead

/-- The first word is of the given kind. -/
def atKind (k : Kind) (ks : List Kind) : Bool :=
  ks.head? = some k

/-- The second word is of the given kind. -/
def thenKind (k : Kind) (ks : List Kind) : Bool :=
  ks.tail.head? = some k

/-- The first word is the given keyword. -/
def atWord (k : Keyword) (ks : List Kind) : Bool :=
  atKind (.keyword k) ks

/-- The first word passes the test. -/
def first (test : Kind → Bool) (ks : List Kind) : Bool :=
  ks.head?.any test

/-- The first word can be used as a name. -/
def atName (ks : List Kind) : Bool :=
  first Kind.isName ks

/-- The second word can be used as a name. -/
def thenName (ks : List Kind) : Bool :=
  atName ks.tail

/-! ## Declarations -/

/-- The words `open module`, or `module` before a name. -/
def atModule (ks : List Kind) : Bool :=
  (atWord .openKw ks && thenKind (.keyword .moduleKw) ks) || (atWord .moduleKw ks && thenName ks)

/-- What may follow `sealed` where it is a modifier. -/
def followsSealed : Kind → Bool
  | .keyword k => k.isModifier || k = .classKw || k = .interfaceKw
  | .atSign => true
  | _ => false

/-- A modifier or an annotation.  `@interface` starts a declaration, and `sealed` is a modifier
only before another one or before the declaration itself. -/
def atModifier : List Kind → Bool
  | .atSign :: ks => !atWord .interfaceKw ks
  | .keyword .sealedKw :: ks => first followsSealed ks
  | .keyword k :: _ => k.isModifier
  | _ => false

/-- A modifier that may stand before a local declaration. -/
def atLocalModifier : List Kind → Bool
  | .keyword .finalKw :: _ | .keyword .abstractKw :: _ | .keyword .staticKw :: _
  | .keyword .strictfpKw :: _ | .keyword .nonSealedKw :: _ => true
  | .keyword .sealedKw :: ks => atModifier (.keyword .sealedKw :: ks)
  | .atSign :: ks => atModifier (.atSign :: ks)
  | _ => false

/-- The start of a type declaration after its modifiers.  `record` starts one only before a name
with a parameter list. -/
def atTypeDecl : List Kind → Bool
  | .keyword .classKw :: _ | .keyword .interfaceKw :: _ | .keyword .enumKw :: _ => true
  | .keyword .recordKw :: ks => atName ks && (thenKind .lParen ks || thenKind .lt ks)
  | .atSign :: ks => atWord .interfaceKw ks
  | _ => false

/-- One of the words before a list of types in the head of a type declaration. -/
def atHeritage (ks : List Kind) : Bool :=
  atWord .extendsKw ks || atWord .implementsKw ks || atWord .permitsKw ks

/-- What may follow the name of an enum constant. -/
def followsConstant : Kind → Bool
  | .comma | .lParen | .lBrace | .semi | .rBrace => true
  | _ => false

/-- An enum constant: an annotation, or a name before what may follow one. -/
def atEnumConstant (ks : List Kind) : Bool :=
  atKind .atSign ks || (atName ks && first followsConstant ks.tail)

/-- A static or an instance initializer. -/
def atInitializer (ks : List Kind) : Bool :=
  atKind .lBrace ks || (atWord .staticKw ks && thenKind .lBrace ks)

/-- The name of a constructor, with parameters or, in a record, without. -/
def atConstructor (ks : List Kind) : Bool :=
  atName ks && (thenKind .lParen ks || thenKind .lBrace ks)

/-- The name of a method. -/
def atMethod (ks : List Kind) : Bool :=
  atName ks && thenKind .lParen ks

/-- A pair of brackets with nothing between them. -/
def atDims (ks : List Kind) : Bool :=
  atKind .lBrack ks && thenKind .rBrack ks

/-! ## Types -/

/-- What may stand between the angle brackets of type arguments. -/
def inTypeArgs : Kind → Bool
  | .identifier | .comma | .dot | .question | .lBrack | .rBrack | .bitAnd | .atSign => true
  | .keyword k => k.isPrimitive || k.isContextual || k = .extendsKw || k = .superKw
  | _ => false

mutual

/-- The words after the rest of a type name, whose last identifier has just been read. -/
def afterName? : List Kind → Option (List Kind)
  | .lt :: ks => afterArgs? 0 ks
  | .dot :: .identifier :: ks => afterName? ks
  | ks => some ks

/-- The words after a type name, `depth + 1` of whose angle brackets are still open. -/
def afterArgs? : Nat → List Kind → Option (List Kind)
  | _, [] => none
  | depth, .lt :: ks => afterArgs? (depth + 1) ks
  | 0, .gt :: .dot :: .identifier :: ks => afterName? ks
  | 0, .gt :: ks => some ks
  | depth + 1, .gt :: ks => afterArgs? depth ks
  | depth, k :: ks => if inTypeArgs k then afterArgs? depth ks else none

end

/-- The words after any empty pairs of brackets. -/
def afterDims : List Kind → List Kind
  | .lBrack :: .rBrack :: ks => afterDims ks
  | ks => ks

/-- The words after a type: a primitive type, `var`, or a name with type arguments, each with any
number of dimensions. -/
def afterType? : List Kind → Option (List Kind)
  | .keyword k :: ks => if k.isPrimitive || k = .varKw then some (afterDims ks) else none
  | .identifier :: ks => (afterName? ks).map afterDims
  | _ => none

/-- The words after any further types that are joined by `&`. -/
def afterBounds? : Nat → List Kind → Option (List Kind)
  | fuel + 1, .bitAnd :: ks => (afterType? ks).bind (afterBounds? fuel)
  | _, ks => some ks

/-- What may follow the name of a declared variable. -/
def followsVariable : Kind → Bool
  | .assign | .comma | .semi | .colon | .lBrack => true
  | _ => false

/-- The declaration of a local variable: a type, a name, and what may follow it. -/
def atLocalVar (ks : List Kind) : Bool :=
  match afterType? ks with
  | some rest => atName rest && first followsVariable rest.tail
  | none => false

/-- The declaration of a resource: a type, a name and an assignment. -/
def atResource (ks : List Kind) : Bool :=
  match afterType? ks with
  | some rest => atName rest && thenKind .assign rest
  | none => false

/-! ## Statements and expressions -/

/-- What may follow `yield` where it is an ordinary name. -/
def followsYieldName : Kind → Bool
  | .assign | .dot | .lBrack | .inc | .dec | .semi => true
  | _ => false

/-- A `yield` statement. -/
def atYield (ks : List Kind) : Bool :=
  atWord .yieldKw ks && !first followsYieldName ks.tail

/-- A label before a statement. -/
def atLabel (ks : List Kind) : Bool :=
  atName ks && thenKind .colon ks

/-- A label of a switch block. -/
def atSwitchLabel (ks : List Kind) : Bool :=
  atWord .caseKw ks || (atWord .defaultKw ks && (thenKind .colon ks || thenKind .arrow ks))

/-- The parenthesis that closes the outermost of `depth + 1` open ones stands before an arrow. -/
def closesBeforeArrow : Nat → List Kind → Bool
  | _, [] => false
  | depth, .lParen :: ks => closesBeforeArrow (depth + 1) ks
  | 0, .rParen :: ks => atKind .arrow ks
  | depth + 1, .rParen :: ks => closesBeforeArrow depth ks
  | depth, _ :: ks => closesBeforeArrow depth ks

/-- A parenthesized list before an arrow. -/
def atLambdaParams : List Kind → Bool
  | .lParen :: ks => closesBeforeArrow 0 ks
  | _ => false

/-- What an operand of a cast may start with, where signs are operands of casts to primitive
types only. -/
def startsOperand (primitive : Bool) : Kind → Bool
  | .identifier | .lParen | .bang | .tilde => true
  | .keyword k => k ≠ .instanceofKw
  | .add | .sub | .inc | .dec => primitive
  | k => k.isLiteral

/-- After such a word a parenthesis does not open a cast. -/
def endsOperand : Kind → Bool
  | .identifier | .rParen | .rBrack | .keyword _ => true
  | _ => false

/-- A parenthesis that opens a cast: types joined by `&`, a closing parenthesis, and the start of
an operand. -/
def atCast (previous : Option Kind) : List Kind → Bool
  | .lParen :: ks =>
    !previous.any endsOperand &&
    match (afterType? ks).bind (afterBounds? ks.length) with
    | some (.rParen :: rest) => first (startsOperand (first Kind.isPrimitive ks)) rest
    | _ => false
  | _ => false

/-- A word that cannot stand in an expression. -/
def notInExpression : Keyword → Bool
  | .ifKw | .elseKw | .forKw | .whileKw | .doKw | .tryKw | .catchKw | .finallyKw | .returnKw
  | .breakKw | .continueKw | .throwKw | .throwsKw | .importKw | .packageKw | .implementsKw => true
  | _ => false

end JavaLint.Lookahead
