import JavaLint.Proofs.Verdict.Outcomes
import JavaLint.Verdict.Finding
import Mathlib.Data.List.Induction
import Mathlib.Tactic.Common

/-!
# The books of a verdict

A verdict keeps counters beside its lists of violations, and each is changed by a step of its own.  They
agree at any time: after every sequence of outcomes, for tokens and lines in any order, also if the parts
of an outcome contradict each other.

The counters of code are the ones with a history, since a brace is held against the first placement that
was determined.  `CodeSummary.Balanced` says how they fit together and is kept by each part of taking in a
token.  The other summaries only count.  `Verdict.Accounts.addToken` and
`Verdict.Accounts.addLine` are the steps for the whole verdict, and
`verdict_keeps_accounts` is the result for all sequences.
-/

namespace JavaLint

/-! ## Code -/

namespace CodeSummary

/-- The number of braces that are placed in the other way than the first one. -/
def otherBraces (s : CodeSummary) : Nat :=
  match s.braceStyle with
  | some .startsNewLine => s.staysInOldLine
  | some .staysInOldLine => s.startsNewLine
  | some .undetermined | none => 0

/-- The counters fit together, and they count the violations. -/
structure Balanced (s : CodeSummary) : Prop where
  violations : s.violations.length =
    s.tooShort + s.tooLong + s.badNaming + s.spacing + s.inconsistentBraces
  inconsistent : s.inconsistentBraces = s.otherBraces
  /-- The first brace with a determined placement sets the style. -/
  first : s.braceStyle = none → s.startsNewLine = 0 ∧ s.staysInOldLine = 0
  determined : s.braceStyle ≠ some .undetermined

variable {s : CodeSummary}

/-- The empty summary. -/
lemma balanced_empty : ({} : CodeSummary).Balanced :=
  ⟨rfl, rfl, fun _ => ⟨rfl, rfl⟩, nofun⟩

/-- Taking in the length of a name. -/
lemma Balanced.addLength (h : s.Balanced) (token : Nat) (length : LengthCheck) :
    (s.addLength token length).Balanced := by
  have hviolations := h.violations
  cases length with
  | withinBounds => exact h
  | tooShort =>
    refine ⟨?_, h.inconsistent, h.first, h.determined⟩
    simp only [CodeSummary.addLength, push, List.length_append, List.length_singleton]
    omega
  | tooLong =>
    refine ⟨?_, h.inconsistent, h.first, h.determined⟩
    simp only [CodeSummary.addLength, push, List.length_append, List.length_singleton]
    omega

/-- Taking in the style of a name. -/
lemma Balanced.addStyle (h : s.Balanced) (token : Nat) (n : NameOutcome) :
    (s.addStyle token n).Balanced := by
  have hviolations := h.violations
  unfold CodeSummary.addStyle
  split
  · exact h
  · refine ⟨?_, h.inconsistent, h.first, h.determined⟩
    simp only [push, List.length_append, List.length_singleton]
    omega

/-- Taking in a token of which a rule about spaces was asked. -/
lemma Balanced.addSpacing (h : s.Balanced) (token : Nat) (fine : Bool) (breach : Breach) :
    (s.addSpacing token fine breach).Balanced := by
  have hviolations := h.violations
  unfold CodeSummary.addSpacing
  split
  · exact h
  · refine ⟨?_, h.inconsistent, h.first, h.determined⟩
    simp only [push, List.length_append, List.length_singleton]
    omega

/-- A placement that is held against the first one, after it has been counted. -/
lemma Balanced.addPlacement (h : s.Balanced) (token : Nat) (placement : BracePlacement) :
    (s.addPlacement token placement).Balanced := by
  obtain ⟨hviolations, hinconsistent, hfirst, hdetermined⟩ := h
  unfold otherBraces at hinconsistent
  unfold CodeSummary.addPlacement comparePlacement
  cases hs : s.braceStyle with
  | none =>
    obtain ⟨hstarts, hstays⟩ := hfirst hs
    cases placement <;> constructor <;>
      simp_all [countPlacement, otherBraces]
  | some expected =>
    cases expected <;> cases placement <;> constructor <;>
      simp_all [countPlacement, otherBraces, push] <;> omega

/-- Taking in the outcome for a token. -/
lemma Balanced.add (h : s.Balanced) (o : TokenOutcome) : (s.add o).Balanced := by
  unfold CodeSummary.add
  split
  · rename_i outcome hruling
    have hcounted : { s with tokens := s.tokens + 1 }.Balanced :=
      ⟨h.violations, h.inconsistent, h.first, h.determined⟩
    cases outcome with
    | name n =>
      have hnamed : { s with tokens := s.tokens + 1, names := s.names + 1 }.Balanced :=
        ⟨h.violations, h.inconsistent, h.first, h.determined⟩
      exact (hnamed.addLength o.token n.length).addStyle o.token n
    | openingBrace placement => exact hcounted.addPlacement o.token placement
    | oneLineBrace spaced => exact hcounted.addSpacing o.token o.fine .oneLineBraceSpacing
    | comma spacedAfter => exact hcounted.addSpacing o.token o.fine .commaSpacing
    | semicolon spacedAfter => exact hcounted.addSpacing o.token o.fine .semicolonSpacing
    | lowOperator spacedBefore spacedAfter =>
      exact hcounted.addSpacing o.token o.fine .operatorSpacing
    | unchecked => exact hcounted
  · exact h

/-- Holding a placement against the first one does not change the number of tokens. -/
lemma tokens_comparePlacement (s : CodeSummary) (token : Nat) (found : BracePlacement) :
    (s.comparePlacement token found).tokens = s.tokens := by
  unfold comparePlacement
  split
  · rfl
  · split <;> rfl

/-- What a code token breaks does not change the number of tokens. -/
lemma tokens_addCode (s : CodeSummary) (token : Nat) (fine : Bool) (outcome : CodeOutcome) :
    (s.addCode token fine outcome).tokens = s.tokens := by
  cases outcome with
  | name n =>
    cases hlength : n.length <;> cases hspelled : n.isWellSpelled <;>
      simp [addCode, addLength, addStyle, push, hlength, hspelled]
  | openingBrace placement =>
    cases placement with
    | undetermined => rfl
    | _ => exact tokens_comparePlacement _ token _
  | unchecked => rfl
  | _ => cases fine <;> rfl

/-- The outcome for a code token is counted once. -/
lemma tokens_add (s : CodeSummary) (o : TokenOutcome) :
    (s.add o).tokens = s.tokens + if o.ruling.category = .code then 1 else 0 := by
  obtain ⟨token, ruling, fine⟩ := o
  cases ruling with
  | code outcome => exact tokens_addCode { s with tokens := s.tokens + 1 } token fine outcome
  | _ => rfl

end CodeSummary

/-! ## Sequences of outcomes -/

/-- What a verdict can take in: the outcome for a token or the outcome for a line. -/
inductive Verdict.Entry where
  | token (o : TokenOutcome)
  | line (o : LineOutcome)

namespace Verdict

namespace Entry

/-- The outcome, if it is for a token. -/
def token? : Entry → Option TokenOutcome
  | token o => some o
  | line _ => none

/-- The outcome, if it is for a line. -/
def line? : Entry → Option LineOutcome
  | token _ => none
  | line o => some o

end Entry

/-- Takes in an outcome. -/
def add (v : Verdict) : Entry → Verdict
  | .token o => v.addToken o
  | .line o => v.addLine o

/-- The verdict that takes in these outcomes in their order. -/
def ofEntries (entries : List Entry) : Verdict :=
  entries.foldl add {}

/-- The books of a verdict after these outcomes for tokens and for lines. -/
structure Accounts (v : Verdict) (tokens : List TokenOutcome) (lines : List LineOutcome) : Prop where
  tokensCounted : v.code.tokens + v.whitespace.tokens + v.comment.comments + v.docComment.docComments =
    tokens.length
  linesCounted : v.line.lines = lines.length
  code : v.code.Balanced
  braceStyle : v.code.braceStyle = tokens.findSome? TokenOutcome.placement?
  whitespace : v.whitespace.violations.length = v.whitespace.mixed
  comment : v.comment.violations.length = v.comment.unspaced
  docComments : v.docComment.docComments = tokens.countP fun o => o.ruling.category = .docComment
  /-- The violations are those of different doc comments. -/
  docComment : (v.docComment.violations.map Violation.item).Sublist
    ((tokens.filter fun o => o.ruling.category = .docComment).map fun o => .token o.token)
  line : v.line.violations.length = v.line.tooLong + v.line.trailingWhitespace

variable {v : Verdict} {tokens : List TokenOutcome} {lines : List LineOutcome}

/-- The step for a token: it is counted in exactly one summary. -/
lemma Accounts.addToken (h : v.Accounts tokens lines) (o : TokenOutcome) :
    (v.addToken o).Accounts (tokens ++ [o]) lines where
  tokensCounted := by
    have htokens := h.tokensCounted
    have hcode := v.code.tokens_add o
    obtain ⟨token, ruling, fine⟩ := o
    rcases ruling with ⟨_ | _⟩ | outcome | ⟨_ | _⟩ | check <;>
      simp_all [Verdict.addToken, WhitespaceSummary.add, CommentSummary.add, DocSummary.add,
        TokenRuling.category] <;> omega
  linesCounted := h.linesCounted
  code := h.code.add o
  braceStyle := by
    rw [braceStyle_addToken, h.braceStyle, List.findSome?_append]
    simp
  whitespace := by
    have hwhitespace := h.whitespace
    obtain ⟨token, ruling, fine⟩ := o
    rcases ruling with ⟨_ | _⟩ | outcome | ⟨spaced⟩ | check <;>
      simp [Verdict.addToken, WhitespaceSummary.add, hwhitespace]
  comment := by
    have hcomment := h.comment
    obtain ⟨token, ruling, fine⟩ := o
    rcases ruling with ⟨mixed⟩ | outcome | ⟨_ | _⟩ | check <;>
      simp [Verdict.addToken, CommentSummary.add, hcomment]
  docComments := by
    have hcount := h.docComments
    obtain ⟨token, ruling, fine⟩ := o
    cases ruling <;> simp [Verdict.addToken, DocSummary.add, TokenRuling.category, hcount]
  docComment := by
    have hdoc := h.docComment
    obtain ⟨token, ruling, fine⟩ := o
    cases ruling with
    | docComment check =>
      simp only [Verdict.addToken, DocSummary.add, List.filter_append, List.map_append]
      refine hdoc.append ?_
      cases check.breach? <;> simp [TokenRuling.category]
    | _ => simpa [Verdict.addToken, DocSummary.add, TokenRuling.category] using hdoc
  line := h.line

/-- The step for a line. -/
lemma Accounts.addLine (h : v.Accounts tokens lines) (o : LineOutcome) :
    (v.addLine o).Accounts tokens (lines ++ [o]) where
  tokensCounted := h.tokensCounted
  linesCounted := by
    rw [List.length_append, ← h.linesCounted]
    unfold Verdict.addLine LineSummary.add LineSummary.addEnd LineSummary.addWidth
    cases o.tooLong <;> cases o.trailingSpace <;> rfl
  code := h.code
  braceStyle := h.braceStyle
  whitespace := h.whitespace
  comment := h.comment
  docComments := h.docComments
  docComment := h.docComment
  line := by
    have hline := h.line
    unfold Verdict.addLine LineSummary.add LineSummary.addEnd LineSummary.addWidth
    cases o.tooLong <;> cases o.trailingSpace <;> simp [hline] <;> omega

/-- The run: the books are right after every sequence of outcomes. -/
lemma accounts_ofEntries (entries : List Entry) :
    (ofEntries entries).Accounts (entries.filterMap Entry.token?) (entries.filterMap Entry.line?) := by
  induction entries using List.reverseRecOn with
  | nil => exact ⟨rfl, rfl, CodeSummary.balanced_empty, rfl, rfl, rfl, rfl, List.Sublist.slnil, rfl⟩
  | append_singleton entries e ih =>
    have hverdict : ofEntries (entries ++ [e]) = (ofEntries entries).add e := List.foldl_concat ..
    rw [hverdict]
    cases e with
    | token o => simpa [add, List.filterMap_cons, Entry.token?, Entry.line?] using ih.addToken o
    | line o => simpa [add, List.filterMap_cons, Entry.token?, Entry.line?] using ih.addLine o

/-- All violations are counted. -/
lemma length_violations (v : Verdict) : v.violations.length = v.violationCount := by
  simp [violations, violationCount, Nat.add_assoc]

end Verdict

/-- After every sequence of outcomes the books of the verdict are right, no doc comment has two
violations, and there are as many findings as violations in the five lists. -/
theorem verdict_keeps_accounts (entries : List Verdict.Entry) :
    let v := Verdict.ofEntries entries
    v.Accounts (entries.filterMap Verdict.Entry.token?) (entries.filterMap Verdict.Entry.line?) ∧
    v.docComment.violations.length ≤ v.docComment.docComments ∧
    v.violationCount = v.code.violations.length + v.whitespace.violations.length +
      v.comment.violations.length + v.docComment.violations.length + v.line.violations.length ∧
    ∀ table, (v.findings table).length = v.violationCount := by
  intro v
  have haccounts := Verdict.accounts_ofEntries entries
  refine ⟨haccounts, ?_, rfl, fun table => ?_⟩
  · have hlength := haccounts.docComment.length_le
    rw [haccounts.docComments, List.countP_eq_length_filter]
    simpa using hlength
  · rw [Verdict.findings, List.length_map, Verdict.length_violations]

end JavaLint
