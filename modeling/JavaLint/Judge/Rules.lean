import JavaLint.Judge.Outcome
import JavaLint.SourceFile

/-!
# The rules

`judgeToken` and `judgeLine` apply the rules to one token and one line of a file.  Both depend on
the file and the settings only, not on what has been judged before.
-/

namespace JavaLint

/-! ## Texts -/

/-- Whitespace that mixes tabs and spaces. -/
def isMixed (text : String) : Bool :=
  text.toList.contains '\t' && text.toList.contains ' '

/-- What a comment says, without its marks. -/
def commentBody (text : List Char) : List Char :=
  match Text.dropStart? ['/', '/'] text with
  | some rest => rest.dropWhile (· == '/')
  | none =>
    match Text.dropStart? ['/', '*'] text with
    | some rest => (Text.dropEnd ['*', '/'] rest).dropWhile (· == '*')
    | none => text

/-- The text of a comment is empty or starts with a blank. -/
def isSpacedComment (text : String) : Bool :=
  (commentBody text.toList).head?.all Text.isBlank

/-! ## Neighbours -/

/-- The neighbour is whitespace, or there is none. -/
def isSpaced (neighbour : Option Token) : Bool :=
  neighbour.all Token.isSpace

/-- The neighbour is there and is whitespace. -/
def hasSpace (neighbour : Option Token) : Bool :=
  neighbour.any Token.isSpace

namespace SourceFile

variable (file : SourceFile)

/-! ## Operators

Shift operators come as several touching tokens `<` or `>`, of which the first stands for the
whole operator. -/

/-- The token counts as an operator of low precedence. -/
def isLowOperator (token : Token) : Bool :=
  match file.model.classification token.number with
  | .ok c => c.role = .lowOperator
  | .error _ => false

/-- The two tokens are parts of one shift operator. -/
def continuesShift (left right : Token) : Bool :=
  right.number = left.number + 1 && right.line = left.line &&
    (left.kind = .gt || left.kind = .lt) && left.kind = right.kind &&
    file.isLowOperator left && file.isLowOperator right

/-- The last part of the operator that starts with a token. -/
def shiftEnd : Nat → Token → Token
  | 0, last => last
  | fuel + 1, last =>
    match file.table.next? last with
    | some next => if file.continuesShift last next then shiftEnd fuel next else last
    | none => last

/-- An operator needs a space on both sides. -/
def judgeOperator (token : Token) : CodeOutcome :=
  let prev := file.table.prev? token
  if prev.any fun prev => file.continuesShift prev token then .unchecked
  else
    let last := file.shiftEnd file.table.count token
    .lowOperator (isSpaced prev) (isSpaced (file.table.next? last))

/-! ## Braces -/

/-- Where an opening brace stands, read off the two tokens before it. -/
def bracePlacement (token : Token) : BracePlacement :=
  match file.table.prev? token with
  | none => .startsNewLine
  | some prev =>
    if prev.isSpace then
      match file.table.prev? prev with
      | none => .startsNewLine
      | some _ => .undetermined
    else .staysInOldLine

/-- An opening brace needs a space after it in a scope on one line, and a placement elsewhere. -/
def judgeOpeningBrace (token : Token) (scope : Scope) : CodeOutcome :=
  if scope.opening = some token.number then
    if scope.oneLine then .oneLineBrace (scope.isEmpty || hasSpace (file.table.next? token))
    else .openingBrace (file.bracePlacement token)
  else .unchecked

/-- A closing brace needs a space before it in a scope on one line. -/
def judgeClosingBrace (token : Token) (scope : Scope) : CodeOutcome :=
  if scope.closing = some token.number && scope.oneLine then
    .oneLineBrace (scope.isEmpty || hasSpace (file.table.prev? token))
  else .unchecked

/-! ## Names -/

/-- A declared name has a style and a length. -/
def judgeName (settings : Settings) (token : Token) (c : Classification) :
    Except Error CodeOutcome :=
  match settings.expectedStyle? c with
  | none => .error (.invariant (.noNamingRule c.role.name))
  | some expected =>
    .ok (.name {
      role := c.role
      length := settings.checkLength token.text
      detected := .detect token.text.toList
      expected := expected })

/-! ## One token, one line -/

/-- A semicolon needs a space or the end of its line after it. -/
def judgeSemicolon (token : Token) : CodeOutcome :=
  let next := file.table.next? token
  .semicolon (isSpaced next || next.any fun next => token.line < next.line)

/-- Judges a code token. -/
def judgeCode (settings : Settings) (token : Token) : Except Error CodeOutcome := do
  let c ← file.model.classification token.number
  if c.role.isDeclaredName then judgeName settings token c
  else match c.role with
    | .lBrace => return file.judgeOpeningBrace token (← file.model.scopeOf token.number)
    | .rBrace => return file.judgeClosingBrace token (← file.model.scopeOf token.number)
    | .comma => return .comma (isSpaced (file.table.next? token))
    | .semicolon => return file.judgeSemicolon token
    | .lowOperator => return file.judgeOperator token
    | _ => return .unchecked

/-- Judges a doc comment by the declaration that starts with the next code token. -/
def judgeDocComment (token : Token) : DocCheck :=
  let declaration := (file.table.nextCode? token.number).bind fun next =>
    file.model.declarationAt? next.number
  .of (.parse token.text) declaration file.model.typeNames file.model.memberNames

/-- Judges a token of any channel. -/
def ruling (settings : Settings) (token : Token) : Except Error TokenRuling :=
  match token.channel with
  | .whitespace => .ok (.whitespace (isMixed token.text))
  | .comment => .ok (.comment (isSpacedComment token.text))
  | .docComment => .ok (.docComment (file.judgeDocComment token))
  | .code => (file.judgeCode settings token).map .code

/-- The outcome for the token with a number. -/
def judgeToken (settings : Settings) (number : Nat) : Except Error TokenOutcome := do
  let token ← file.table.token number
  let ruling ← file.ruling settings token
  return { token := number, ruling := ruling, fine := ruling.isFine }

/-- The outcome for the line with a number. -/
def judgeLine (settings : Settings) (number : Nat) : LineOutcome :=
  let width := file.table.lineWidth number
  let tooLong := decide (settings.maxLineWidth < width)
  let trailingSpace := hasSpace (file.table.lineTokens number).back?
  { line := number
    width := width
    tooLong := tooLong
    trailingSpace := trailingSpace
    fine := !tooLong && !trailingSpace }

end SourceFile

end JavaLint
