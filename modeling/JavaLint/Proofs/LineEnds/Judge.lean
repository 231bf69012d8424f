import JavaLint.Judge.Session
import JavaLint.Proofs.LineEnds.Doc
import Mathlib.Tactic.Common

/-!
# The rules and the ends of lines

Every token and every line of a changed file is judged as it was before (`judgeToken_withCrlf`,
`judgeLine_withCrlf`).  Neighbours are found where they were, and most rules ask of a text no more than
its kind.  Those that look at the characters of a text are about names, in which no line ends, about
blanks, and about comments, whose start and end stay as they are.
-/

namespace JavaLint

open Text (crlf isBreak OneLine)

/-! ## Texts -/

/-- Tabs and spaces are mixed if they were before. -/
lemma isMixed_withCrlf (text : String) : isMixed (Text.withCrlf text) = isMixed text := by
  rw [Bool.eq_iff_iff]
  simp [isMixed, Text.mem_crlf_iff]

/-- What a comment says is changed as any text. -/
lemma commentBody_crlf (text : List Char) : commentBody (crlf text) = crlf (commentBody text) := by
  unfold commentBody
  rw [Text.dropStart?_crlf (by simp [isBreak])]
  cases Text.dropStart? ['/', '/'] text with
  | some rest => exact Text.dropWhile_crlf rfl rfl rest
  | none =>
    simp only [Option.map_none]
    rw [Text.dropStart?_crlf (by simp [isBreak])]
    cases Text.dropStart? ['/', '*'] text with
    | some rest =>
      simp only [Option.map_some]
      rw [Text.dropEnd_crlf (by simp [isBreak]), Text.dropWhile_crlf rfl rfl]
    | none => rfl

/-- A comment starts with a blank if it did before. -/
lemma isSpacedComment_withCrlf (text : String) :
    isSpacedComment (Text.withCrlf text) = isSpacedComment text := by
  unfold isSpacedComment
  rw [Text.toList_withCrlf, commentBody_crlf]
  cases commentBody text.toList with
  | nil => rfl
  | cons c cs =>
    by_cases hc : c = '\n'
    · subst hc
      rfl
    · rw [Text.crlf_cons hc]
      rfl

/-! ## Neighbours -/

/-- A changed neighbour is whitespace if it was before. -/
@[simp] lemma isSpaced_withCrlf (neighbour : Option Token) :
    isSpaced (neighbour.map .withCrlf) = isSpaced neighbour := by
  cases neighbour <;> rfl

/-- A changed neighbour is there and is whitespace if it was before. -/
@[simp] lemma hasSpace_withCrlf (neighbour : Option Token) :
    hasSpace (neighbour.map .withCrlf) = hasSpace neighbour := by
  cases neighbour <;> rfl

/-- What is known of a token stands at its number. -/
lemma Model.classification_eq_ok_iff {m : Model} {n : Nat} {c : Classification} :
    m.classification n = .ok c ↔ m.classes[n]? = some c := by
  unfold Model.classification
  cases m.classes[n]? <;> simp

/-- The file with changed texts. -/
def SourceFile.withCrlf (file : SourceFile) : SourceFile :=
  ⟨file.table.withCrlf, file.model.withCrlf⟩

/-- What is known of a token of a changed file. -/
lemma Model.classification_withCrlf (m : Model) (n : Nat) :
    m.withCrlf.classification n = (m.classification n).map .withCrlf := by
  have hclasses : m.withCrlf.classes[n]? = m.classes[n]?.map .withCrlf := by
    simp [Model.withCrlf]
  unfold Model.classification
  rw [hclasses]
  cases m.classes[n]? <;> rfl

namespace SourceFile

variable (file : SourceFile)

/-! ## Operators and braces -/

/-- The token after a changed token. -/
@[simp] lemma next?_withCrlf (token : Token) : file.withCrlf.table.next? token.withCrlf =
    (file.table.next? token).map .withCrlf :=
  LineTable.next?_withCrlf file.table token

/-- The token before a changed token. -/
@[simp] lemma prev?_withCrlf (token : Token) : file.withCrlf.table.prev? token.withCrlf =
    (file.table.prev? token).map .withCrlf :=
  LineTable.prev?_withCrlf file.table token

/-- What is known of a changed token. -/
lemma classification_withCrlf (token : Token) :
    file.withCrlf.model.classification token.withCrlf.number =
      (file.model.classification token.number).map .withCrlf :=
  file.model.classification_withCrlf token.number

/-- A changed token counts as an operator if it did before. -/
lemma isLowOperator_withCrlf (token : Token) :
    file.withCrlf.isLowOperator token.withCrlf = file.isLowOperator token := by
  unfold isLowOperator
  rw [classification_withCrlf]
  cases file.model.classification token.number <;> rfl

/-- Two changed tokens are parts of one shift operator if they were before. -/
lemma continuesShift_withCrlf (left right : Token) :
    file.withCrlf.continuesShift left.withCrlf right.withCrlf = file.continuesShift left right := by
  unfold continuesShift
  rw [isLowOperator_withCrlf, isLowOperator_withCrlf]
  rfl

/-- A shift operator ends where it did. -/
lemma shiftEnd_withCrlf (fuel : Nat) (token : Token) :
    file.withCrlf.shiftEnd fuel token.withCrlf = (file.shiftEnd fuel token).withCrlf := by
  induction fuel generalizing token with
  | zero => rfl
  | succ fuel ih =>
    rw [shiftEnd, shiftEnd, next?_withCrlf]
    cases file.table.next? token with
    | none => rfl
    | some next =>
      simp only [Option.map_some, continuesShift_withCrlf, ih]
      split <;> rfl

/-- An operator is judged as it was. -/
lemma judgeOperator_withCrlf (token : Token) :
    file.withCrlf.judgeOperator token.withCrlf = file.judgeOperator token := by
  have hcount : file.withCrlf.table.count = file.table.count := LineTable.count_withCrlf file.table
  have hcontinues : ((file.table.prev? token).map Token.withCrlf).any
      (fun prev => file.withCrlf.continuesShift prev token.withCrlf) =
      (file.table.prev? token).any fun prev => file.continuesShift prev token := by
    cases file.table.prev? token with
    | none => rfl
    | some prev => exact file.continuesShift_withCrlf prev token
  simp only [judgeOperator, prev?_withCrlf, hcontinues, hcount, shiftEnd_withCrlf, next?_withCrlf,
    isSpaced_withCrlf]

/-- An opening brace stands where it did. -/
lemma bracePlacement_withCrlf (token : Token) :
    file.withCrlf.bracePlacement token.withCrlf = file.bracePlacement token := by
  unfold bracePlacement
  rw [prev?_withCrlf]
  cases file.table.prev? token with
  | none => rfl
  | some prev =>
    simp only [Option.map_some, Token.isSpace_withCrlf, prev?_withCrlf]
    cases file.table.prev? prev <;> rfl

/-- An opening brace is judged as it was. -/
lemma judgeOpeningBrace_withCrlf (token : Token) (scope : Scope) :
    file.withCrlf.judgeOpeningBrace token.withCrlf scope = file.judgeOpeningBrace token scope := by
  unfold judgeOpeningBrace
  rw [next?_withCrlf, hasSpace_withCrlf, bracePlacement_withCrlf]
  rfl

/-- A closing brace is judged as it was. -/
lemma judgeClosingBrace_withCrlf (token : Token) (scope : Scope) :
    file.withCrlf.judgeClosingBrace token.withCrlf scope = file.judgeClosingBrace token scope := by
  unfold judgeClosingBrace
  rw [prev?_withCrlf, hasSpace_withCrlf]
  rfl

/-- A semicolon is judged as it was. -/
lemma judgeSemicolon_withCrlf (token : Token) :
    file.withCrlf.judgeSemicolon token.withCrlf = file.judgeSemicolon token := by
  have hlater : ((file.table.next? token).map Token.withCrlf).any
      (fun next => token.withCrlf.line < next.line) =
      (file.table.next? token).any fun next => token.line < next.line := by
    cases file.table.next? token <;> rfl
  simp only [judgeSemicolon, next?_withCrlf, hlater, isSpaced_withCrlf]

/-! ## One token -/

variable {file}

/-- A name in which no line ends is judged as it was. -/
lemma judgeName_withCrlf (settings : Settings) {token : Token} (h : OneLine token.text)
    (c : Classification) :
    judgeName settings token.withCrlf c.withCrlf = judgeName settings token c := by
  have hstyle : settings.expectedStyle? c.withCrlf = settings.expectedStyle? c := rfl
  have hrole : c.withCrlf.role = c.role := rfl
  have htext : token.withCrlf.text = token.text := h.withCrlf_eq
  simp only [judgeName, hstyle, hrole, htext]

/-- A code token is judged as it was. -/
lemma judgeCode_withCrlf (h : file.QuotesLines) (settings : Settings) {token : Token}
    (htoken : file.table.tokens[token.number]? = some token) :
    file.withCrlf.judgeCode settings token.withCrlf = file.judgeCode settings token := by
  unfold judgeCode
  rw [classification_withCrlf]
  cases hc : file.model.classification token.number with
  | error e => simp only [Except.map, bind, Except.bind]
  | ok c =>
    have hc' := Model.classification_eq_ok_iff.1 hc
    have hrole : c.withCrlf.role = c.role := rfl
    have hscope : file.withCrlf.model.scopeOf token.withCrlf.number =
        file.model.scopeOf token.number := rfl
    simp only [Except.map, bind, Except.bind, hrole, hscope, next?_withCrlf, isSpaced_withCrlf,
      judgeOpeningBrace_withCrlf, judgeClosingBrace_withCrlf, judgeSemicolon_withCrlf,
      judgeOperator_withCrlf]
    split
    · rename_i hname
      have hquoted : c.role.isQuoted = true := by simp [Role.isQuoted, hname]
      exact judgeName_withCrlf settings (h.tokens token.number c token hc' hquoted htoken) c
    · split <;> rfl

/-- The names of declared types and members are the same. -/
lemma QuotesLines.names_eq (h : file.QuotesLines) :
    file.withCrlf.model.typeNames = file.model.typeNames ∧
      file.withCrlf.model.memberNames = file.model.memberNames := by
  have hname : ∀ d ∈ file.model.declarations, d.withCrlf.name = d.name :=
    fun d hd => (h.declarations d hd).name.withCrlf_eq
  have hnames (p : DeclKind → Bool) :
      ((file.model.declarations.map Declaration.withCrlf).filter fun d => p d.kind).map
        Declaration.name =
      (file.model.declarations.filter fun d => p d.kind).map Declaration.name := by
    rw [List.filter_map, List.map_map]
    exact List.map_congr_left fun d hd => hname d (List.mem_filter.1 hd).1
  exact ⟨hnames DeclKind.isType, hnames fun kind => !kind.isType⟩

/-- A doc comment is judged as it was. -/
lemma judgeDocComment_withCrlf (h : file.QuotesLines) (token : Token) :
    file.withCrlf.judgeDocComment token.withCrlf = file.judgeDocComment token := by
  obtain ⟨htypes, hmembers⟩ := h.names_eq
  have hat (n : Nat) : file.withCrlf.model.declarationAt? n =
      (file.model.declarationAt? n).map .withCrlf := by
    simp only [Model.declarationAt?, withCrlf, Model.withCrlf, List.find?_map]
    rfl
  have hdeclaration :
      ((file.withCrlf.table.nextCode? token.withCrlf.number).bind fun next =>
        file.withCrlf.model.declarationAt? next.number) =
      ((file.table.nextCode? token.number).bind fun next =>
        file.model.declarationAt? next.number).map .withCrlf := by
    rw [show file.withCrlf.table.nextCode? token.withCrlf.number =
      (file.table.nextCode? token.number).map .withCrlf from
        LineTable.nextCode?_withCrlf file.table token.number]
    cases file.table.nextCode? token.number with
    | none => rfl
    | some next => exact hat next.number
  unfold judgeDocComment
  rw [hdeclaration, htypes, hmembers, show token.withCrlf.text = Text.withCrlf token.text from rfl,
    DocComment.parse_withCrlf]
  apply DocCheck.of_withCrlf
  intro d hd
  obtain ⟨next, -, hd⟩ := Option.bind_eq_some_iff.1 hd
  exact h.declarations d (List.mem_of_find?_eq_some hd)

/-- A token of any channel is judged as it was. -/
lemma ruling_withCrlf (h : file.QuotesLines) (settings : Settings) {token : Token}
    (htoken : file.table.tokens[token.number]? = some token) :
    file.withCrlf.ruling settings token.withCrlf = file.ruling settings token := by
  have hchannel : token.withCrlf.channel = token.channel := rfl
  have htext : token.withCrlf.text = Text.withCrlf token.text := rfl
  simp only [ruling, hchannel, htext, isMixed_withCrlf, isSpacedComment_withCrlf,
    judgeDocComment_withCrlf h, judgeCode_withCrlf h settings htoken]

/-- The token with a number is judged as it was. -/
theorem judgeToken_withCrlf (h : file.QuotesLines) (settings : Settings) (n : Nat) :
    file.withCrlf.judgeToken settings n = file.judgeToken settings n := by
  have htoken : file.withCrlf.table.token n = (file.table.token n).map .withCrlf :=
    LineTable.token_withCrlf file.table n
  unfold judgeToken
  rw [htoken]
  cases hn : file.table.token n with
  | error e => simp only [Except.map, bind, Except.bind]
  | ok token =>
    have hget := LineTable.token_eq_ok_iff.1 hn
    have hnumber := h.numbers n token hget
    rw [← hnumber] at hget
    simp only [Except.map, bind, Except.bind, ruling_withCrlf h settings hget]

/-- The line with a number is judged as it was. -/
theorem judgeLine_withCrlf (settings : Settings) (n : Nat) :
    file.withCrlf.judgeLine settings n = file.judgeLine settings n := by
  have hwidth : file.withCrlf.table.lineWidth n = file.table.lineWidth n :=
    LineTable.lineWidth_withCrlf file.table n
  have hlast : (file.withCrlf.table.lineTokens n).back? =
      (file.table.lineTokens n).back?.map .withCrlf := by
    rw [withCrlf, LineTable.lineTokens_withCrlf, Array.back?_map]
  simp only [judgeLine, hwidth, hlast, hasSpace_withCrlf]

end SourceFile

end JavaLint
