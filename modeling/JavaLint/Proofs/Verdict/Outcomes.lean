import JavaLint.Proofs.Answer
import JavaLint.Proofs.Judge.Covers
import Mathlib.Tactic.Common

/-!
# What a verdict says of the outcomes

The verdict on a file is the sum of the outcomes for its tokens and lines: `analyze_eq` says so, and
that the session in which they are judged changes none of them.  There is a verdict on every file that
can be judged (`analyze_succeeds`).

An outcome adds the breaches that it shows to the category of its token or line, and nothing to the
others (`ofCategory_addToken`, `ofCategory_addLine`).  Only what an opening brace adds depends on the
outcomes before it, by the first placement that was determined.  So what a category holds after a run
can be written down as a function of the outcomes: `ofCategory_ofOutcomes`.
-/

namespace JavaLint

/-! ## Judging in a session -/

namespace Session

/-- The session after these tokens have been judged. -/
def withTokens (s : Session) (numbers : List Nat) : Session :=
  { s with tokensDone := numbers.foldl (fun done n => done.setIfInBounds n true) s.tokensDone }

/-- A token that exists is judged in a new session as it is judged by itself. -/
lemma start_judgeToken (file : SourceFile) (settings : Settings) {n : Nat}
    (hn : n < file.table.count) :
    ((start file settings).judgeToken n).1 = file.judgeToken settings n := by
  simp [judgeToken, start, hn]

/-- A line that exists is judged in a new session as it is judged by itself. -/
lemma start_judgeLine (file : SourceFile) (settings : Settings) {n : Nat} (hpos : 0 < n)
    (hn : n ≤ file.table.rows.size) :
    ((start file settings).judgeLine n).1 = .ok (file.judgeLine settings n) := by
  obtain ⟨m, rfl⟩ := Nat.exists_eq_succ_of_ne_zero (Nat.ne_of_gt hpos)
  have hfree : (start file settings).lineDone? (m + 1) = some false := by
    simp only [lineDone?, start, Array.getElem?_replicate]
    rw [if_pos (by omega)]
  simp only [judgeLine, hfree]
  rfl

end Session

namespace Verdict

/-- The verdict that takes in these outcomes for tokens, and then these for lines. -/
def ofOutcomes (tokens : List TokenOutcome) (lines : List LineOutcome) : Verdict :=
  lines.foldl addLine (tokens.foldl addToken {})

end Verdict

namespace SourceFile

/-- The outcomes for all tokens of a file in their order. -/
def tokenOutcomes (file : SourceFile) (settings : Settings) : Except Error (List TokenOutcome) :=
  (List.range file.table.count).mapM (file.judgeToken settings)

/-- The outcomes for all lines of a file in their order. -/
def lineOutcomes (file : SourceFile) (settings : Settings) : List LineOutcome :=
  (file.table.lines.map Line.number).map (file.judgeLine settings)

/-- Judging tokens that have not been judged gives the outcomes for them. -/
lemma judgeTokens_eq {s : Session} {numbers : List Nat} (hnodup : numbers.Nodup)
    (hfree : ∀ n ∈ numbers, s.tokensDone[n]? = some false) (v : Verdict) :
    judgeTokens v s numbers = (numbers.mapM (s.file.judgeToken s.settings)).map fun outcomes =>
      (outcomes.foldl Verdict.addToken v, s.withTokens numbers) := by
  induction numbers generalizing v s with
  | nil => rfl
  | cons n numbers ih =>
    obtain ⟨hn, hrest⟩ := List.forall_mem_cons.1 hfree
    obtain ⟨hfresh, hnodup⟩ := List.nodup_cons.1 hnodup
    have hfree' : ∀ m ∈ numbers, (s.withTokens [n]).tokensDone[m]? = some false := by
      intro m hm
      have hne : n ≠ m := fun heq => hfresh (heq ▸ hm)
      exact (Array.getElem?_setIfInBounds_ne hne).trans (hrest m hm)
    have hfile : (s.withTokens [n]).file = s.file := rfl
    have hsettings : (s.withTokens [n]).settings = s.settings := rfl
    rw [judgeTokens, Session.judgeToken, hn, List.mapM_cons]
    cases houtcome : s.file.judgeToken s.settings n with
    | error e => rfl
    | ok outcome =>
      have hjudge := ih hnodup hfree' (v.addToken outcome)
      rw [hfile, hsettings] at hjudge
      refine hjudge.trans ?_
      cases numbers.mapM (s.file.judgeToken s.settings) <;> rfl

/-- Judging lines that have not been judged gives the outcomes for them. -/
lemma judgeLines_eq {s : Session} {numbers : List Nat} (hnodup : numbers.Nodup)
    (hfree : ∀ n ∈ numbers, s.lineDone? n = some false) (v : Verdict) :
    (judgeLines v s numbers).map Prod.fst =
      .ok ((numbers.map (s.file.judgeLine s.settings)).foldl Verdict.addLine v) := by
  induction numbers generalizing v s with
  | nil => rfl
  | cons n numbers ih =>
    obtain ⟨hn, hrest⟩ := List.forall_mem_cons.1 hfree
    obtain ⟨hfresh, hnodup⟩ := List.nodup_cons.1 hnodup
    have hfree' : ∀ m ∈ numbers,
        { s with linesDone := s.linesDone.setIfInBounds (n - 1) true }.lineDone? m =
          some false := by
      intro m hm
      have hold := hrest m hm
      match n, m, hn, hold with
      | n + 1, m + 1, _, hold =>
        have hne : n ≠ m := fun heq => hfresh (heq ▸ hm)
        simpa [Session.lineDone?, Array.getElem?_setIfInBounds_ne hne] using hold
    simpa [judgeLines, Session.judgeLine, hn] using
      ih hnodup hfree' (v.addLine (s.file.judgeLine s.settings n))

/-- The verdict on a file is made of the outcomes for its tokens and its lines. -/
theorem analyze_eq (file : SourceFile) (settings : Settings) :
    file.analyze settings = (file.tokenOutcomes settings).map fun outcomes =>
      Verdict.ofOutcomes outcomes (file.lineOutcomes settings) := by
  have htokens : ∀ n ∈ List.range file.table.count,
      (Session.start file settings).tokensDone[n]? = some false := by
    intro n hn
    simp [Session.start, List.mem_range.1 hn]
  have hlines : ∀ n ∈ file.table.lines.map Line.number,
      ((Session.start file settings).withTokens (List.range file.table.count)).lineDone? n =
        some false := by
    intro n hn
    rw [LineTable.map_number_lines] at hn
    obtain ⟨hpos, hlt⟩ := List.mem_range'_1.1 hn
    obtain ⟨m, rfl⟩ := Nat.exists_eq_add_of_le' hpos
    simp only [Session.lineDone?, Session.withTokens, Session.start, Array.getElem?_replicate]
    rw [if_pos (by omega)]
  have hnodup : (file.table.lines.map Line.number).Nodup := by
    rw [LineTable.map_number_lines]
    exact List.nodup_range'
  have hall : judgeTokens {} (.start file settings) (List.range file.table.count) =
      (file.tokenOutcomes settings).map fun outcomes => (outcomes.foldl Verdict.addToken {},
        (Session.start file settings).withTokens (List.range file.table.count)) :=
    judgeTokens_eq List.nodup_range htokens {}
  rw [analyze, hall]
  cases file.tokenOutcomes settings with
  | error e => rfl
  | ok outcomes =>
    obtain ⟨judged, hjudged, hverdict⟩ := exists_of_map_eq_ok
      (judgeLines_eq hnodup hlines (outcomes.foldl Verdict.addToken {}))
    simp only [Except.map, bind, Except.bind, hjudged]
    exact congrArg Except.ok hverdict

/-- There is a verdict on every file whose model covers its table. -/
theorem analyze_succeeds {file : SourceFile} (h : file.Covers) (settings : Settings) :
    ∃ v, file.analyze settings = .ok v := by
  have hjudge : ∀ n ∈ List.range file.table.count,
      ∃ outcome, file.judgeToken settings n = .ok outcome :=
    fun n hn => judgeToken_succeeds h settings (List.mem_range.1 hn)
  obtain ⟨outcomes, houtcomes⟩ : ∃ outcomes, file.tokenOutcomes settings = .ok outcomes :=
    exists_mapM_eq_ok hjudge
  exact ⟨_, by rw [analyze_eq, houtcomes]; rfl⟩

/-- The outcomes for the tokens of a file are those for its numbers. -/
lemma forall₂_tokenOutcomes {file : SourceFile} {settings : Settings}
    {outcomes : List TokenOutcome} (h : file.tokenOutcomes settings = .ok outcomes) :
    List.Forall₂ (fun n o => file.judgeToken settings n = .ok o) (List.range file.table.count)
      outcomes :=
  forall₂_of_mapM_eq_ok h

/-- The outcome for a token says which token it is for, and whether it is as it should be. -/
lemma judgeToken_eq_ok {file : SourceFile} {settings : Settings} {n : Nat} {o : TokenOutcome}
    (h : file.judgeToken settings n = .ok o) : o.token = n ∧ o.fine = o.ruling.isFine := by
  unfold judgeToken at h
  obtain ⟨token, -, h⟩ := exists_of_bind_eq_ok h
  obtain ⟨ruling, -, h⟩ := exists_of_bind_eq_ok h
  obtain rfl := Except.ok.inj h
  exact ⟨rfl, rfl⟩

/-- The outcome for a token holds what the rules say about it. -/
lemma ruling_of_judgeToken {file : SourceFile} {settings : Settings} {n : Nat} {token : Token}
    (htoken : file.table.token n = .ok token) {o : TokenOutcome}
    (h : file.judgeToken settings n = .ok o) :
    file.ruling settings token = .ok o.ruling := by
  unfold judgeToken at h
  obtain ⟨token', htoken', h⟩ := exists_of_bind_eq_ok h
  obtain rfl : token = token' := Except.ok.inj (htoken.symm.trans htoken')
  obtain ⟨ruling, hruling, h⟩ := exists_of_bind_eq_ok h
  obtain rfl := Except.ok.inj h
  exact hruling

/-- Only a code token is judged as such. -/
lemma judgeCode_of_ruling {file : SourceFile} {settings : Settings} {token : Token}
    {outcome : CodeOutcome} (h : file.ruling settings token = .ok (.code outcome)) :
    file.judgeCode settings token = .ok outcome := by
  unfold ruling at h
  split at h
  · simp at h
  · simp at h
  · simp at h
  · obtain ⟨outcome', houtcome', hcode⟩ := exists_of_map_eq_ok h
    rw [houtcome', TokenRuling.code.inj hcode]

end SourceFile

/-! ## What an outcome adds -/

/-- The category in which a token is counted. -/
def TokenRuling.category : TokenRuling → Category
  | whitespace _ => .whitespace
  | code _ => .code
  | comment _ => .comment
  | docComment _ => .docComment

/-- What the length of a name breaks. -/
def LengthCheck.breaches : LengthCheck → List Breach
  | tooShort => [.tooShort]
  | tooLong => [.tooLong]
  | withinBounds => []

/-- What a name breaks. -/
def NameOutcome.breaches (n : NameOutcome) : List Breach :=
  n.length.breaches ++ if n.isWellSpelled then [] else [.naming n.role n.expected n.detected]

/-- The placement, if it is determined. -/
def BracePlacement.determined? : BracePlacement → Option BracePlacement
  | undetermined => none
  | placement => some placement

/-- What an opening brace breaks that comes after one with a determined placement. -/
def BracePlacement.breaches (found expected : BracePlacement) : List Breach :=
  if expected = found then [] else [.inconsistentBrace expected found]

/-- What a code token breaks, where `style` is the first placement that was determined before. -/
def CodeOutcome.breaches (style : Option BracePlacement) (fine : Bool) : CodeOutcome → List Breach
  | name n => n.breaches
  | openingBrace placement =>
    placement.determined?.elim [] fun found => style.elim [] found.breaches
  | oneLineBrace _ => if fine then [] else [.oneLineBraceSpacing]
  | comma _ => if fine then [] else [.commaSpacing]
  | semicolon _ => if fine then [] else [.semicolonSpacing]
  | lowOperator _ _ => if fine then [] else [.operatorSpacing]
  | unchecked => []

/-- The placement of an opening brace, if it is determined. -/
def CodeOutcome.placement? : CodeOutcome → Option BracePlacement
  | openingBrace placement => placement.determined?
  | _ => none

namespace TokenOutcome

/-- What a token breaks, where `style` is the first placement that was determined before. -/
def breaches (style : Option BracePlacement) (o : TokenOutcome) : List Breach :=
  match o.ruling with
  | .whitespace mixed => if mixed then [.mixedIndentation] else []
  | .code outcome => outcome.breaches style o.fine
  | .comment spaced => if spaced then [] else [.commentSpacing]
  | .docComment check => check.breach?.toList

/-- The placement of an opening brace, if it is determined. -/
def placement? (o : TokenOutcome) : Option BracePlacement :=
  match o.ruling with
  | .code outcome => outcome.placement?
  | _ => none

/-- The violations of a category that the outcomes add one after the other, where `style` is the first
placement that was determined before them. -/
def violationsIn (category : Category) : Option BracePlacement → List TokenOutcome → List Violation
  | _, [] => []
  | style, o :: os =>
    (if o.ruling.category = category then (o.breaches style).map (⟨.token o.token, ·⟩) else []) ++
      violationsIn category (style.or o.placement?) os

end TokenOutcome

/-- What a line breaks. -/
def LineOutcome.breaches (o : LineOutcome) : List Breach :=
  (if o.tooLong then [.lineTooLong o.width] else []) ++
    if o.trailingSpace then [.trailingWhitespace] else []

/-- The violations that outcomes for lines add. -/
def LineOutcome.violationsOf (os : List LineOutcome) : List Violation :=
  os.flatMap fun o => o.breaches.map (⟨.line o.line, ·⟩)

namespace Verdict

/-- The violations of a category. -/
def ofCategory (v : Verdict) : Category → List Violation
  | .code => v.code.violations
  | .whitespace => v.whitespace.violations
  | .comment => v.comment.violations
  | .docComment => v.docComment.violations
  | .line => v.line.violations

/-- Picking the violations of a category from all of them. -/
lemma filter_violations (v : Verdict) (category : Category) :
    v.violations.filter (fun p => p.1 = category) = (v.ofCategory category).map (category, ·) := by
  have hsame (vs : List Violation) :
      (vs.map (category, ·)).filter (fun p => p.1 = category) = vs.map (category, ·) := by
    simp
  have hother {c : Category} (hc : c ≠ category) (vs : List Violation) :
      (vs.map (c, ·)).filter (fun p => p.1 = category) = [] := by
    simp [hc]
  simp only [violations, List.filter_append]
  cases category <;> simp [hsame, hother, ofCategory]

/-- A violation is among all of them if it is among those of its category. -/
lemma mem_violations_iff {v : Verdict} {category : Category} {violation : Violation} :
    (category, violation) ∈ v.violations ↔ violation ∈ v.ofCategory category := by
  have hfilter := congrArg ((category, violation) ∈ ·) (v.filter_violations category)
  simpa using hfilter

/-- A verdict passes if there are no violations in any category. -/
lemma passed_iff (v : Verdict) : v.passed = true ↔ ∀ category, v.ofCategory category = [] := by
  have hall : (∀ category, v.ofCategory category = []) ↔ v.code.violations = [] ∧
      v.whitespace.violations = [] ∧ v.comment.violations = [] ∧ v.docComment.violations = [] ∧
      v.line.violations = [] := by
    constructor
    · exact fun h => ⟨h .code, h .whitespace, h .comment, h .docComment, h .line⟩
    · rintro ⟨hcode, hwhitespace, hcomment, hdoc, hline⟩ category
      cases category <;> assumption
  rw [hall]
  simp [passed, violationCount, Nat.add_eq_zero_iff, and_assoc]

end Verdict

/-! ## One outcome -/

namespace CodeSummary

/-- The second summary has further breaches at a token, and a placement that counts if none was
determined before. -/
structure Adds (s s' : CodeSummary) (token : Nat) (placement : Option BracePlacement)
    (breaches : List Breach) : Prop where
  braceStyle : s'.braceStyle = s.braceStyle.or placement
  violations : s'.violations = s.violations ++ breaches.map (⟨.token token, ·⟩)

/-- Taking in the length of a name. -/
lemma adds_addLength (s : CodeSummary) (token : Nat) (length : LengthCheck) :
    s.Adds (s.addLength token length) token none length.breaches := by
  cases length <;> constructor <;> simp [addLength, push, LengthCheck.breaches]

/-- Taking in a name. -/
lemma adds_addName (s : CodeSummary) (token : Nat) (n : NameOutcome) :
    s.Adds ((s.addLength token n.length).addStyle token n) token none n.breaches := by
  obtain ⟨hstyle, hviolations⟩ := s.adds_addLength token n.length
  unfold addStyle NameOutcome.breaches
  split
  · exact ⟨hstyle, by rw [hviolations, List.append_nil]⟩
  · exact ⟨hstyle, by simp [push, hviolations]⟩

/-- Taking in a token of which a rule about spaces was asked. -/
lemma adds_addSpacing (s : CodeSummary) (token : Nat) (fine : Bool) (breach : Breach) :
    s.Adds (s.addSpacing token fine breach) token none (if fine then [] else [breach]) := by
  cases fine <;> constructor <;> simp [addSpacing, push]

/-- Counting a placement adds nothing. -/
lemma adds_countPlacement (s : CodeSummary) (token : Nat) (placement : BracePlacement) :
    s.Adds (s.countPlacement placement) token none [] := by
  cases placement <;> constructor <;> simp [countPlacement]

/-- Holding a placement against the first that was determined. -/
lemma adds_comparePlacement (s : CodeSummary) (token : Nat) (found : BracePlacement) :
    s.Adds (s.comparePlacement token found) token (some found)
      (s.braceStyle.elim [] found.breaches) := by
  unfold comparePlacement
  cases hstyle : s.braceStyle with
  | none => exact ⟨by simp [hstyle], by simp⟩
  | some expected =>
    dsimp only [Option.elim, BracePlacement.breaches]
    split <;> exact ⟨by simp [push, hstyle], by simp [push]⟩

/-- Taking in an opening brace. -/
lemma adds_addPlacement (s : CodeSummary) (token : Nat) (placement : BracePlacement) :
    s.Adds (s.addPlacement token placement) token placement.determined?
      (placement.determined?.elim [] fun found => s.braceStyle.elim [] found.breaches) := by
  obtain ⟨hstyle, hviolations⟩ := s.adds_countPlacement token placement
  rw [Option.or_none] at hstyle
  rw [List.map_nil, List.append_nil] at hviolations
  have hcompare := (s.countPlacement placement).adds_comparePlacement token placement
  unfold addPlacement
  split
  · rename_i hplacement
    rw [hplacement] at hstyle hviolations ⊢
    exact ⟨by simp [BracePlacement.determined?, hstyle], by
      simp [BracePlacement.determined?, hviolations]⟩
  · have hdetermined : placement.determined? = some placement := by
      cases placement <;> simp_all [BracePlacement.determined?]
    rw [hdetermined]
    exact ⟨by rw [hcompare.braceStyle, hstyle], by
      rw [hcompare.violations, hstyle, hviolations, Option.elim_some]⟩

/-- Taking in the outcome for a code token. -/
lemma adds_addCode (s : CodeSummary) (token : Nat) (fine : Bool) (outcome : CodeOutcome) :
    s.Adds (s.addCode token fine outcome) token outcome.placement?
      (outcome.breaches s.braceStyle fine) := by
  cases outcome with
  | name n =>
    obtain ⟨hstyle, hviolations⟩ := adds_addName { s with names := s.names + 1 } token n
    exact ⟨hstyle, hviolations⟩
  | openingBrace placement => exact s.adds_addPlacement token placement
  | oneLineBrace spaced => exact s.adds_addSpacing token fine .oneLineBraceSpacing
  | comma spacedAfter => exact s.adds_addSpacing token fine .commaSpacing
  | semicolon spacedAfter => exact s.adds_addSpacing token fine .semicolonSpacing
  | lowOperator spacedBefore spacedAfter => exact s.adds_addSpacing token fine .operatorSpacing
  | unchecked => exact ⟨by simp [addCode, CodeOutcome.placement?], by simp [addCode, CodeOutcome.breaches]⟩

/-- Taking in the outcome for a token. -/
lemma adds_add (s : CodeSummary) (o : TokenOutcome) :
    s.Adds (s.add o) o.token o.placement?
      (if o.ruling.category = .code then o.breaches s.braceStyle else []) := by
  obtain ⟨token, ruling, fine⟩ := o
  cases ruling with
  | code outcome =>
    obtain ⟨hstyle, hviolations⟩ :=
      adds_addCode { s with tokens := s.tokens + 1 } token fine outcome
    exact ⟨hstyle, hviolations⟩
  | _ => exact ⟨by simp [add, TokenOutcome.placement?], by simp [add, TokenRuling.category]⟩

end CodeSummary

namespace Verdict

/-- The first placement that was determined, after one more outcome. -/
lemma braceStyle_addToken (v : Verdict) (o : TokenOutcome) :
    (v.addToken o).code.braceStyle = v.code.braceStyle.or o.placement? :=
  (v.code.adds_add o).braceStyle

/-- The outcome for a token adds its breaches to the category of the token. -/
lemma ofCategory_addToken (v : Verdict) (o : TokenOutcome) (category : Category) :
    (v.addToken o).ofCategory category = v.ofCategory category ++
      if o.ruling.category = category then
        (o.breaches v.code.braceStyle).map (⟨.token o.token, ·⟩) else [] := by
  have hcode := (v.code.adds_add o).violations
  obtain ⟨token, ruling, fine⟩ := o
  cases category with
  | code =>
    refine hcode.trans ?_
    split <;> rfl
  | whitespace =>
    rcases ruling with ⟨_ | _⟩ | outcome | ⟨spaced⟩ | check <;>
      simp [ofCategory, addToken, WhitespaceSummary.add, TokenRuling.category, TokenOutcome.breaches]
  | comment =>
    rcases ruling with ⟨mixed⟩ | outcome | ⟨_ | _⟩ | check <;>
      simp [ofCategory, addToken, CommentSummary.add, TokenRuling.category, TokenOutcome.breaches]
  | docComment =>
    rcases ruling with ⟨mixed⟩ | outcome | ⟨spaced⟩ | check <;>
      simp [ofCategory, addToken, DocSummary.add, TokenRuling.category, TokenOutcome.breaches]
  | line => cases ruling <;> simp [ofCategory, addToken, TokenRuling.category]

/-- The outcome for a line adds its breaches to the category of lines. -/
lemma ofCategory_addLine (v : Verdict) (o : LineOutcome) (category : Category) :
    (v.addLine o).ofCategory category = v.ofCategory category ++
      if category = .line then o.breaches.map (⟨.line o.line, ·⟩) else [] := by
  cases category with
  | line =>
    unfold addLine LineSummary.add LineSummary.addEnd LineSummary.addWidth LineOutcome.breaches
    cases o.tooLong <;> cases o.trailingSpace <;> simp [ofCategory]
  | _ => simp [ofCategory, addLine]

/-! ## A run -/

/-- The outcomes for tokens add their violations one after the other. -/
lemma ofCategory_foldl_addToken (v : Verdict) (os : List TokenOutcome) (category : Category) :
    (os.foldl addToken v).ofCategory category =
      v.ofCategory category ++ TokenOutcome.violationsIn category v.code.braceStyle os := by
  induction os generalizing v with
  | nil => simp [TokenOutcome.violationsIn]
  | cons o os ih =>
    rw [List.foldl_cons, ih, ofCategory_addToken, braceStyle_addToken, List.append_assoc]
    rfl

/-- The outcomes for lines add their violations one after the other. -/
lemma ofCategory_foldl_addLine (v : Verdict) (os : List LineOutcome) (category : Category) :
    (os.foldl addLine v).ofCategory category = v.ofCategory category ++
      if category = .line then LineOutcome.violationsOf os else [] := by
  induction os generalizing v with
  | nil => simp [LineOutcome.violationsOf]
  | cons o os ih =>
    rw [List.foldl_cons, ih, ofCategory_addLine, List.append_assoc]
    split <;> simp [LineOutcome.violationsOf]

/-- What the categories of a verdict hold, as a function of the outcomes. -/
theorem ofCategory_ofOutcomes (tokens : List TokenOutcome) (lines : List LineOutcome)
    (category : Category) :
    (ofOutcomes tokens lines).ofCategory category =
      TokenOutcome.violationsIn category none tokens ++
        if category = .line then LineOutcome.violationsOf lines else [] := by
  have hempty : ({} : Verdict).ofCategory category = [] := by cases category <;> rfl
  rw [ofOutcomes, ofCategory_foldl_addLine, ofCategory_foldl_addToken, hempty, List.nil_append]

end Verdict

namespace TokenOutcome

/-- Every violation comes from an outcome of its category. -/
lemma mem_violationsIn {category : Category} {style : Option BracePlacement}
    {os : List TokenOutcome} {violation : Violation} (h : violation ∈ violationsIn category style os) :
    ∃ o ∈ os, o.ruling.category = category ∧ violation.item = .token o.token ∧
      ∃ style', violation.breach ∈ o.breaches style' := by
  induction os generalizing style with
  | nil => simp [violationsIn] at h
  | cons o os ih =>
    rcases List.mem_append.1 h with hfirst | hrest
    · split at hfirst
      · rename_i hcategory
        obtain ⟨breach, hbreach, rfl⟩ := List.mem_map.1 hfirst
        exact ⟨o, by simp, hcategory, rfl, style, hbreach⟩
      · simp at hfirst
    · obtain ⟨o', ho', hrest⟩ := ih hrest
      exact ⟨o', List.mem_cons_of_mem o ho', hrest⟩

end TokenOutcome

end JavaLint
