import JavaLint.Proofs.LineEnds.Judge
import JavaLint.Proofs.Verdict.Outcomes
import JavaLint.Proofs.Verdict.Safety
import Mathlib.Tactic.Common

/-!
# Findings and the ends of lines

The verdict on a changed file is that on the file, since every token and every line is judged as it was
(`analyze_withCrlf`).  A finding quotes the token at which it is found only if the token is a declared
name or an operator, and in these no line ends; so the findings are the same, too.

The main result is `findings_do_not_depend_on_line_ends`.
-/

namespace JavaLint

open Text (OneLine)

/-! ## Reading the changed text -/

/-- The text of a lexeme has the characters of the source text only. -/
lemma Lexeme.not_mem_text_of_scan {source : String} {ls : List Lexeme} {c : Char}
    (hscan : Lexeme.scan source = .ok ls) (hc : c ∉ source.toList) : ∀ l ∈ ls, c ∉ l.text.toList := by
  intro l hl hmem
  apply hc
  rw [← (Lexeme.scan_eq_ok hscan).1]
  exact List.mem_flatMap.2 ⟨l, hl, hmem⟩

namespace SourceFile

/-- What is read of a changed text is what is read of the text, with changed texts; and if the one is
refused then so is the other. -/
theorem parse_toOption_withCrlf {source : String} (h : '\r' ∉ source.toList) :
    (SourceFile.parse (Text.withCrlf source)).toOption =
      (SourceFile.parse source).toOption.map withCrlf := by
  have hscan' := Lexeme.scan_crlf h
  unfold SourceFile.parse
  rw [hscan']
  cases hscan : Lexeme.scan source with
  | error e => rfl
  | ok ls =>
    have htrees := parse_withCrlf (Lexeme.movedOffset source.toList) ls
    have htable := LineTable.ofLexemes_withCrlf (Lexeme.movedOffset source.toList)
      (Lexeme.not_mem_text_of_scan hscan h)
    cases hparse : JavaLint.parse ls with
    | error e =>
      cases hparse' : JavaLint.parse (ls.map (.withCrlf (Lexeme.movedOffset source.toList))) with
      | error e' => simp [Except.map, bind, Except.bind, hparse, hparse', Except.toOption]
      | ok trees' => simp [hparse, hparse', Except.toOption] at htrees
    | ok trees =>
      obtain ⟨b, model, hbuild, -⟩ := Model.build_succeeds hparse (codeHasText_of_scan hscan)
      have hbuild' := Model.build_withCrlf (Lexeme.movedOffset source.toList) hbuild
      cases hparse' : JavaLint.parse (ls.map (.withCrlf (Lexeme.movedOffset source.toList))) with
      | error e' => simp [hparse, hparse', Except.toOption] at htrees
      | ok trees' =>
        obtain rfl : trees' = trees.withCrlf _ := by
          simpa [hparse, hparse', Except.toOption] using htrees
        simp only [Except.map, bind, Except.bind, hparse, hparse', hbuild, hbuild', pure, Except.pure,
          Except.toOption, Option.map_some, withCrlf, htable]

end SourceFile

/-! ## The verdict -/

namespace SourceFile

variable {file : SourceFile}

/-- The verdict on a changed file is that on the file. -/
theorem analyze_withCrlf (h : file.QuotesLines) (settings : Settings) :
    file.withCrlf.analyze settings = file.analyze settings := by
  have hcount : file.withCrlf.table.count = file.table.count := LineTable.count_withCrlf file.table
  have hlines : file.withCrlf.table.lines = file.table.lines := LineTable.lines_withCrlf file.table
  have htokens : file.withCrlf.tokenOutcomes settings = file.tokenOutcomes settings := by
    rw [tokenOutcomes, tokenOutcomes, hcount, funext (judgeToken_withCrlf h settings)]
  have hjudge : file.withCrlf.judgeLine settings = file.judgeLine settings :=
    funext (judgeLine_withCrlf settings)
  have hlineOutcomes : file.withCrlf.lineOutcomes settings = file.lineOutcomes settings := by
    rw [lineOutcomes, lineOutcomes, hlines, hjudge]
  rw [analyze_eq, analyze_eq, htokens, hlineOutcomes]

end SourceFile

/-! ## The findings -/

/-- The message about the breach quotes the token. -/
def Breach.quotes : Breach → Bool
  | tooShort | tooLong | naming .. | operatorSpacing => true
  | _ => false

namespace Finding

variable (table : LineTable)

/-- The parts of a shift operator are the same. -/
lemma shiftTail_withCrlf (text : String) (fuel : Nat) (last : Token) :
    shiftTail table.withCrlf text fuel last.withCrlf = shiftTail table text fuel last := by
  induction fuel generalizing last with
  | zero => rfl
  | succ fuel ih =>
    rw [shiftTail, shiftTail, LineTable.next?_withCrlf]
    cases table.next? last with
    | none => rfl
    | some next =>
      have hgt : Text.withCrlf next.text = ">" ↔ next.text = ">" :=
        OneLine.withCrlf_eq_iff (by decide)
      have hlt : Text.withCrlf next.text = "<" ↔ next.text = "<" :=
        OneLine.withCrlf_eq_iff (by decide)
      simp only [Option.map_some, ih]
      by_cases hshift : next.text = ">" ∨ next.text = "<"
      · have hline : OneLine next.text := by rcases hshift with h | h <;> rw [h] <;> decide
        have htext : next.withCrlf.text = next.text := hline.withCrlf_eq
        simp only [htext]
        rfl
      · have hshift' : ¬ (next.withCrlf.text = ">" ∨ next.withCrlf.text = "<") := by
          simpa [Token.withCrlf, hgt, hlt] using hshift
        simp only [← Bool.decide_or, hshift, hshift', decide_false, Bool.false_and, Bool.false_eq_true,
          if_false]

/-- What is said of a token stays the same, if no line ends in the token where it is quoted. -/
lemma tokenMessage_withCrlf {token : Token} {breach : Breach}
    (h : breach.quotes = true → OneLine token.text) :
    tokenMessage table.withCrlf token.withCrlf breach = tokenMessage table token breach := by
  have htext (hquotes : breach.quotes = true) : token.withCrlf.text = token.text :=
    (h hquotes).withCrlf_eq
  have hbrace : token.withCrlf.text = "\x7b" ↔ token.text = "\x7b" :=
    OneLine.withCrlf_eq_iff (by decide)
  unfold tokenMessage
  cases breach with
  | tooShort => simp only [htext rfl]
  | tooLong => simp only [htext rfl]
  | naming role expected detected => simp only [htext rfl]
  | operatorSpacing =>
    simp only [shiftText, LineTable.count_withCrlf, shiftTail_withCrlf, htext rfl]
  | oneLineBraceSpacing => simp only [hbrace]
  | _ => dsimp only

/-- A violation is put into the same words, if no line ends in the token where it is quoted. -/
lemma ofViolation_withCrlf (category : Category) {violation : Violation}
    (h : ∀ n token, violation.item = .token n → table.token n = .ok token →
      violation.breach.quotes = true → OneLine token.text) :
    ofViolation table.withCrlf category violation = ofViolation table category violation := by
  obtain ⟨item, breach⟩ := violation
  cases item with
  | line n => rfl
  | token n =>
    unfold ofViolation
    dsimp only
    rw [LineTable.token_withCrlf]
    cases htoken : table.token n with
    | error e => rfl
    | ok token =>
      have hmessage := tokenMessage_withCrlf table (h n token rfl htoken)
      simp only [Except.map, hmessage]
      rfl

end Finding

/-- The token that a message quotes is code. -/
lemma TokenOutcome.isCode_of_quotes {o : TokenOutcome} {style : Option BracePlacement}
    {breach : Breach} (hbreach : breach ∈ o.breaches style) (hquotes : breach.quotes = true) :
    ∃ outcome, o.ruling = .code outcome ∧ breach ∈ outcome.breaches style o.fine := by
  obtain ⟨token, ruling, fine⟩ := o
  cases ruling with
  | code outcome => exact ⟨outcome, rfl, hbreach⟩
  | whitespace mixed =>
    cases mixed <;> simp [breaches] at hbreach
    subst hbreach
    cases hquotes
  | comment spaced =>
    cases spaced <;> simp [breaches] at hbreach
    subst hbreach
    cases hquotes
  | docComment check =>
    simp only [breaches, Option.mem_toList, DocCheck.breach?] at hbreach
    split_ifs at hbreach <;> simp at hbreach <;> subst hbreach <;> cases hquotes

namespace SourceFile

variable {file : SourceFile} {settings : Settings}

/-- A breach of which a message quotes the token is that of a name or of an operator. -/
lemma quotes_cases {outcome : CodeOutcome} {style : Option BracePlacement} {fine : Bool}
    {breach : Breach} (hbreach : breach ∈ outcome.breaches style fine)
    (hquotes : breach.quotes = true) :
    (∃ n, outcome = .name n) ∨ ∃ before after, outcome = .lowOperator before after := by
  cases outcome with
  | name n => exact .inl ⟨n, rfl⟩
  | lowOperator before after => exact .inr ⟨before, after, rfl⟩
  | openingBrace placement =>
    have hnone : ∀ found expected, breach ∉ BracePlacement.breaches found expected := by
      intro found expected hmem
      unfold BracePlacement.breaches at hmem
      split at hmem
      · simp at hmem
      · obtain rfl := List.mem_singleton.1 hmem
        cases hquotes
    unfold CodeOutcome.breaches at hbreach
    cases hplacement : placement.determined? <;> cases style <;> simp_all
  | unchecked => simp [CodeOutcome.breaches] at hbreach
  | _ =>
    simp only [CodeOutcome.breaches] at hbreach
    cases fine <;> simp at hbreach
    subst hbreach
    cases hquotes

/-- Only names and operators are judged as such. -/
lemma isQuoted_of_judgeCode {token : Token} {outcome : CodeOutcome}
    (hjudge : file.judgeCode settings token = .ok outcome)
    (houtcome : (∃ n, outcome = .name n) ∨ ∃ before after, outcome = .lowOperator before after) :
    ∃ c, file.model.classification token.number = .ok c ∧ c.role.isQuoted = true := by
  unfold judgeCode at hjudge
  obtain ⟨c, hc, hjudge⟩ := exists_of_bind_eq_ok hjudge
  refine ⟨c, hc, ?_⟩
  split at hjudge
  · rename_i hname
    simp [Role.isQuoted, hname]
  split at hjudge
  · obtain ⟨scope, -, hjudge⟩ := exists_of_bind_eq_ok hjudge
    obtain rfl := Except.ok.inj hjudge
    unfold judgeOpeningBrace at houtcome
    split at houtcome
    · split at houtcome <;> simp at houtcome
    · simp at houtcome
  · obtain ⟨scope, -, hjudge⟩ := exists_of_bind_eq_ok hjudge
    obtain rfl := Except.ok.inj hjudge
    unfold judgeClosingBrace at houtcome
    split at houtcome <;> simp at houtcome
  · obtain rfl := Except.ok.inj hjudge
    simp at houtcome
  · obtain rfl := Except.ok.inj hjudge
    simp [judgeSemicolon] at houtcome
  · rename_i hrole
    simp [Role.isQuoted, hrole]
  · obtain rfl := Except.ok.inj hjudge
    simp at houtcome

/-- No line ends in a token that is quoted in a message about its outcome. -/
lemma QuotesLines.oneLine_of_breach (h : file.QuotesLines) {n : Nat} {token : Token}
    (htoken : file.table.token n = .ok token) {o : TokenOutcome}
    (hjudge : file.judgeToken settings n = .ok o) {style : Option BracePlacement} {breach : Breach}
    (hbreach : breach ∈ o.breaches style) (hquotes : breach.quotes = true) : OneLine token.text := by
  have hget := LineTable.token_eq_ok_iff.1 htoken
  obtain ⟨outcome, houtcome, hbreach⟩ := TokenOutcome.isCode_of_quotes hbreach hquotes
  have hruling := ruling_of_judgeToken htoken hjudge
  rw [houtcome] at hruling
  obtain ⟨c, hc, hrole⟩ :=
    isQuoted_of_judgeCode (judgeCode_of_ruling hruling) (quotes_cases hbreach hquotes)
  rw [h.numbers n token hget] at hc
  exact h.tokens n c token (Model.classification_eq_ok_iff.1 hc) hrole hget

end SourceFile

/-! ## The analysis -/

/-- The findings in a changed file are those in the file. -/
lemma SourceFile.findings_withCrlf {file : SourceFile} (h : file.QuotesLines) {settings : Settings}
    {verdict : Verdict} (hverdict : file.analyze settings = .ok verdict) :
    verdict.findings file.withCrlf.table = verdict.findings file.table := by
  obtain ⟨outcomes, houtcomes, rfl⟩ :=
    exists_of_map_eq_ok ((file.analyze_eq settings).symm.trans hverdict)
  refine List.map_congr_left fun p hp => ?_
  obtain ⟨category, violation⟩ := p
  refine Finding.ofViolation_withCrlf file.table category fun n token hitem htoken hquotes => ?_
  have hmem := Verdict.mem_violations_iff.1 hp
  rw [Verdict.ofCategory_ofOutcomes] at hmem
  rcases List.mem_append.1 hmem with htokens | hlines
  · obtain ⟨o, ho, -, hnumber, style, hbreach⟩ := TokenOutcome.mem_violationsIn htokens
    obtain ⟨m, -, hjudge⟩ := exists_of_mem_of_mapM_eq_ok houtcomes ho
    have hn : n = m := by
      rw [← (judgeToken_eq_ok hjudge).1]
      exact Item.token.inj (hitem.symm.trans hnumber)
    subst hn
    exact h.oneLine_of_breach htoken hjudge hbreach hquotes
  · split at hlines
    · obtain ⟨o, -, hline⟩ := List.mem_flatMap.1 hlines
      obtain ⟨breach, -, rfl⟩ := List.mem_map.1 hline
      cases hitem
    · simp at hlines

/-- A source text whose lines end with `\n` is accepted if and only if it is accepted with `\r\n` at
the ends of its lines, and then the verdict and the findings are the same. -/
theorem findings_do_not_depend_on_line_ends {source : String} (h : '\r' ∉ source.toList)
    (settings : Settings) :
    ((∃ a, analyzeSource source settings = .ok a) ↔
      ∃ a, analyzeSource (Text.withCrlf source) settings = .ok a) ∧
    ∀ a a', analyzeSource source settings = .ok a →
      analyzeSource (Text.withCrlf source) settings = .ok a' →
      a'.verdict = a.verdict ∧ a'.findings = a.findings := by
  have hread := SourceFile.parse_toOption_withCrlf h
  cases hfile : SourceFile.parse source with
  | error e =>
    rw [hfile] at hread
    have hfile' : ∃ e', SourceFile.parse (Text.withCrlf source) = .error e' := by
      cases hparse : SourceFile.parse (Text.withCrlf source) with
      | error e' => exact ⟨e', rfl⟩
      | ok file' => simp [hparse, Except.toOption] at hread
    obtain ⟨e', hfile'⟩ := hfile'
    refine ⟨iff_of_false ?_ ?_, fun a _ ha => absurd ha (analyzeSource_ne_ok hfile settings a)⟩
    · rintro ⟨a, ha⟩
      exact analyzeSource_ne_ok hfile settings a ha
    · rintro ⟨a, ha⟩
      exact analyzeSource_ne_ok hfile' settings a ha
  | ok file =>
    have hfile' : SourceFile.parse (Text.withCrlf source) = .ok file.withCrlf := by
      cases hparse : SourceFile.parse (Text.withCrlf source) with
      | error e' => simp [hparse, hfile, Except.toOption] at hread
      | ok file' => simpa [hparse, hfile, Except.toOption] using hread
    have hquotes := SourceFile.quotesLines_of_parse hfile
    obtain ⟨verdict, hverdict, hanalysis⟩ := analyzeSource_of_parse hfile settings
    obtain ⟨verdict', hverdict', hanalysis'⟩ := analyzeSource_of_parse hfile' settings
    rw [SourceFile.analyze_withCrlf hquotes, hverdict] at hverdict'
    obtain rfl := Except.ok.inj hverdict'
    refine ⟨iff_of_true ⟨_, hanalysis⟩ ⟨_, hanalysis'⟩, fun a a' ha ha' => ?_⟩
    obtain rfl := Except.ok.inj (hanalysis.symm.trans ha)
    obtain rfl := Except.ok.inj (hanalysis'.symm.trans ha')
    exact ⟨rfl, SourceFile.findings_withCrlf hquotes hverdict⟩

/-- The findings in a class below a comment of two lines, with an operator that needs spaces, and with
either ends of lines. -/
theorem findings_of_commented_class :
    ∃ a a', analyzeSource "/*one\n two */\nclass Abcd \x7b int value=1; \x7d\n" {} = .ok a ∧
      analyzeSource (Text.withCrlf "/*one\n two */\nclass Abcd \x7b int value=1; \x7d\n") {} = .ok a' ∧
      a'.findings = a.findings ∧ a'.findings.map (fun f => (f.line, f.rule)) =
        [(3, "operator-spacing"), (1, "comment-spacing")] := by
  have hrules : ((analyzeSource "/*one\n two */\nclass Abcd \x7b int value=1; \x7d\n" {}).toOption.map
      fun a => a.findings.map fun f => (f.line, f.rule)) =
        some [(3, "operator-spacing"), (1, "comment-spacing")] := by
    decide +kernel
  have hreturns : '\r' ∉ "/*one\n two */\nclass Abcd \x7b int value=1; \x7d\n".toList := by decide
  obtain ⟨hsuccess, hsame⟩ := findings_do_not_depend_on_line_ends hreturns {}
  cases ha : analyzeSource "/*one\n two */\nclass Abcd \x7b int value=1; \x7d\n" {} with
  | error e => simp [ha, Except.toOption] at hrules
  | ok a =>
    obtain ⟨a', ha'⟩ := hsuccess.1 ⟨a, ha⟩
    obtain ⟨-, hfindings⟩ := hsame a a' ha ha'
    refine ⟨a, a', rfl, ha', hfindings, ?_⟩
    rw [hfindings]
    simpa [ha, Except.toOption] using hrules

end JavaLint
