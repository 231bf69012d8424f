import JavaLint.Proofs.Model.Braces
import JavaLint.Proofs.Token.Neighbours
import JavaLint.Proofs.Verdict.Passing
import JavaLint.Proofs.Verdict.Width
import Mathlib.Tactic.Common

/-!
# The verdict on braces

A verdict can say that an opening brace is not placed as the braces before it.  The verdict on a file
never does, since no brace of a file is found to start a line: the placement is read off the two tokens
before the brace, and both are always there (`SourceFile.bracePlacement_ne`).

Each brace is judged by the scope that it opens or closes.  So the outcomes can be told from the scopes
of the file (`SourceFile.accounts_of_judgeToken`), and counting the ones is counting the others
(`SourceFile.countP_opensLines`).  The main result is `braces_are_accounted_for`.
-/

namespace JavaLint

/-! ## The outcome for a brace -/

/-- The token is a brace of which a rule was asked. -/
def CodeOutcome.isBrace : CodeOutcome → Bool
  | oneLineBrace _ | openingBrace _ => true
  | _ => false

namespace SourceFile

variable {file : SourceFile} {settings : Settings} {s : Scope} {o : TokenOutcome}

/-- A brace is judged by its scope. -/
lemma exists_scope_of_isBrace {t : Token} {outcome : CodeOutcome}
    (h : file.judgeCode settings t = .ok outcome) (hbrace : outcome.isBrace = true) :
    ∃ s, file.model.scopeOf t.number = .ok s ∧
      (outcome = file.judgeOpeningBrace t s ∨ outcome = file.judgeClosingBrace t s) := by
  obtain ⟨c, -, h⟩ := exists_of_bind_eq_ok h
  split at h
  · unfold judgeName at h
    split at h
    · cases h
    · obtain rfl := Except.ok.inj h
      cases hbrace
  split at h
  · obtain ⟨s, hs, h⟩ := exists_of_bind_eq_ok h
    exact ⟨s, hs, .inl (Except.ok.inj h).symm⟩
  · obtain ⟨s, hs, h⟩ := exists_of_bind_eq_ok h
    exact ⟨s, hs, .inr (Except.ok.inj h).symm⟩
  · obtain rfl := Except.ok.inj h
    cases hbrace
  · obtain rfl := Except.ok.inj h
    cases hbrace
  · obtain rfl := Except.ok.inj h
    dsimp only [judgeOperator] at hbrace
    split at hbrace <;> cases hbrace
  · obtain rfl := Except.ok.inj h
    cases hbrace

/-- A token after the second one is not read as one that starts a line. -/
lemma bracePlacement_ne {source : String} (h : SourceFile.parse source = .ok file) {n : Nat} {t : Token}
    (ht : file.table.tokens[n]? = some t) (hn : 2 ≤ n) : file.bracePlacement t ≠ .startsNewLine := by
  obtain ⟨ls, trees, b, hfrom⟩ := comesFrom_of_parse h
  obtain ⟨m, rfl⟩ := Nat.exists_eq_add_of_le' hn
  rw [hfrom.table] at ht
  obtain ⟨p, hp, hm⟩ := LineTable.exists_prev? hfrom.placed ht
  obtain ⟨q, hq, -⟩ := LineTable.exists_prev? hfrom.placed hm
  simp only [bracePlacement, hfrom.table, hp, hq]
  split <;> simp

/-- What the rules say about a brace that is known to be one. -/
lemma ruling_of_hasPlain {kind : Kind} {n : Nat} (h : file.HasPlain kind n)
    (hcode : kind.channel = some .code) (ho : file.judgeToken settings n = .ok o) :
    ∃ t c, file.table.tokens[n]? = some t ∧ t.number = n ∧
      file.model.classification n = .ok c ∧ c.role = Role.ofKind kind ∧
      (file.judgeCode settings t).map .code = .ok o.ruling := by
  obtain ⟨t, c, ht, rfl, hnumber, hc, hrole⟩ := h
  have hchannel : t.channel = .code := by simp [Token.channel, hcode]
  have hruling := ruling_of_judgeToken (LineTable.token_eq_ok_iff.2 ht) ho
  rw [ruling, hchannel] at hruling
  exact ⟨t, c, ht, hnumber, hc, hrole, hruling⟩

/-- The opening brace of a scope is judged as such. -/
lemma ruling_first (h : s.OwnsBraces file) (ho : file.judgeToken settings s.first = .ok o) :
    ∃ t, file.table.tokens[s.first]? = some t ∧ o.ruling = .code (
      if s.oneLine then .oneLineBrace (s.isEmpty || hasSpace (file.table.next? t))
      else .openingBrace (file.bracePlacement t)) := by
  obtain ⟨t, c, ht, hnumber, hc, hrole, hruling⟩ := ruling_of_hasPlain h.opens rfl ho
  have hcode : file.judgeCode settings t = .ok (file.judgeOpeningBrace t s) := by
    simp [judgeCode, hnumber, hc, hrole, Role.ofKind, Role.isDeclaredName, Role.isTypeName,
      h.scopeOf_first, bind, Except.bind, pure, Except.pure]
  rw [hcode] at hruling
  refine ⟨t, ht, (Except.ok.inj hruling).symm.trans ?_⟩
  simp [judgeOpeningBrace, hnumber, h.opening]

/-- The closing brace of a scope on one line is judged as such, and that of another scope is not. -/
lemma ruling_last (h : s.OwnsBraces file) (ho : file.judgeToken settings s.last = .ok o) :
    ∃ t, file.table.tokens[s.last]? = some t ∧ o.ruling = .code (
      if s.oneLine then .oneLineBrace (s.isEmpty || hasSpace (file.table.prev? t)) else .unchecked) := by
  obtain ⟨t, c, ht, hnumber, hc, hrole, hruling⟩ := ruling_of_hasPlain h.closes rfl ho
  have hcode : file.judgeCode settings t = .ok (file.judgeClosingBrace t s) := by
    simp [judgeCode, hnumber, hc, hrole, Role.ofKind, Role.isDeclaredName, Role.isTypeName,
      h.scopeOf_last, bind, Except.bind, pure, Except.pure]
  rw [hcode] at hruling
  refine ⟨t, ht, (Except.ok.inj hruling).symm.trans ?_⟩
  simp [judgeClosingBrace, hnumber, h.closing]

/-- Only the braces of a scope are judged as braces by this scope. -/
lemma judgeBrace_cases {t : Token} {outcome : CodeOutcome}
    (h : outcome = file.judgeOpeningBrace t s ∨ outcome = file.judgeClosingBrace t s)
    (hbrace : outcome.isBrace = true) :
    ((∃ spaced, outcome = .oneLineBrace spaced) ∧ s.oneLine = true ∧
      (s.opening = some t.number ∨ s.closing = some t.number)) ∨
    ((∃ placement, outcome = .openingBrace placement) ∧ s.oneLine = false ∧
      s.opening = some t.number) := by
  rcases h with rfl | rfl
  · unfold judgeOpeningBrace at hbrace ⊢
    split_ifs at hbrace ⊢ with hopening honeLine
    · exact .inl ⟨⟨_, rfl⟩, honeLine, .inl hopening⟩
    · exact .inr ⟨⟨_, rfl⟩, by simpa using honeLine, hopening⟩
    · cases hbrace
  · unfold judgeClosingBrace at hbrace ⊢
    split_ifs at hbrace ⊢ with hcloses
    · simp only [Bool.and_eq_true, decide_eq_true_eq] at hcloses
      exact .inl ⟨⟨_, rfl⟩, hcloses.2, .inr hcloses.1⟩
    · cases hbrace

/-- Only the braces of the scopes of a file are judged as braces. -/
lemma exists_block_of_isBrace (hcovers : file.Covers) {blocks : List Scope}
    (hblocks : file.model.scopes.toList = .file :: blocks) {n : Nat} (hn : n < file.table.count)
    (ho : file.judgeToken settings n = .ok o) {outcome : CodeOutcome}
    (hruling : o.ruling = .code outcome) (hbrace : outcome.isBrace = true) :
    ∃ s ∈ blocks,
      ((∃ spaced, outcome = .oneLineBrace spaced) ∧ s.oneLine = true ∧
        (s.opening = some n ∨ s.closing = some n)) ∨
      ((∃ placement, outcome = .openingBrace placement) ∧ s.oneLine = false ∧
        s.opening = some n) := by
  obtain ⟨t, ht⟩ : ∃ t, file.table.tokens[n]? = some t := ⟨_, Array.getElem?_eq_getElem hn⟩
  obtain rfl := hcovers.numbers n t ht
  have hcode :=
    judgeCode_of_ruling (hruling ▸ ruling_of_judgeToken (LineTable.token_eq_ok_iff.2 ht) ho)
  obtain ⟨s, hs, hjudged⟩ := exists_scope_of_isBrace hcode hbrace
  obtain ⟨s', hs', hmem⟩ := hcovers.scopeOf hn
  obtain rfl : s' = s := Except.ok.inj (hs'.symm.trans hs)
  rw [← Array.mem_toList_iff, hblocks] at hmem
  rcases List.mem_cons.1 hmem with rfl | hmem
  · -- The file has no braces.
    rcases hjudged with rfl | rfl <;> cases hbrace
  · exact ⟨s', hmem, judgeBrace_cases hjudged hbrace⟩

end SourceFile

/-- What the outcome for the token with number `n` tells of the braces of these scopes: exactly the two
braces of a scope on one line and the opening brace of any other scope are judged as such, and the
latter is not found to start a line. -/
structure TokenRuling.Accounts (blocks : List Scope) (n : Nat) (ruling : TokenRuling) : Prop where
  oneLine : (∃ spaced, ruling = .code (.oneLineBrace spaced)) ↔
    ∃ s ∈ blocks, s.oneLine = true ∧ (s.opening = some n ∨ s.closing = some n)
  opens : (∃ placement, ruling = .code (.openingBrace placement)) ↔
    ∃ s ∈ blocks, s.oneLine = false ∧ s.opening = some n
  placed : ruling ≠ .code (.openingBrace .startsNewLine)

namespace SourceFile

variable {file : SourceFile} {settings : Settings} {o : TokenOutcome}

/-- The outcomes for the tokens of a file account for the braces of its scopes. -/
lemma accounts_of_judgeToken {source : String} (h : SourceFile.parse source = .ok file)
    {blocks : List Scope} (hblocks : file.model.scopes.toList = .file :: blocks)
    (howns : ∀ s ∈ blocks, s.OwnsBraces file) {n : Nat} (hn : n < file.table.count)
    (ho : file.judgeToken settings n = .ok o) : o.ruling.Accounts blocks n := by
  have hcovers := covers_of_parse h
  have hopens : (∃ placement, o.ruling = .code (.openingBrace placement)) →
      ∃ s ∈ blocks, s.oneLine = false ∧ s.opening = some n := by
    rintro ⟨placement, hruling⟩
    obtain ⟨s, hs, ⟨⟨spaced, hspaced⟩, -⟩ | ⟨-, hopens⟩⟩ :=
      exists_block_of_isBrace hcovers hblocks hn ho hruling rfl
    · cases hspaced
    · exact ⟨s, hs, hopens⟩
  have hfirst {s : Scope} (hs : s ∈ blocks) (hopening : s.opening = some n) : s.first = n :=
    Option.some.inj ((howns s hs).opening.symm.trans hopening)
  have hlast {s : Scope} (hs : s ∈ blocks) (hclosing : s.closing = some n) : s.last = n :=
    Option.some.inj ((howns s hs).closing.symm.trans hclosing)
  refine ⟨⟨?_, ?_⟩, ⟨hopens, ?_⟩, ?_⟩
  · rintro ⟨spaced, hruling⟩
    obtain ⟨s, hs, ⟨-, honeLine⟩ | ⟨⟨placement, hplacement⟩, -⟩⟩ :=
      exists_block_of_isBrace hcovers hblocks hn ho hruling rfl
    · exact ⟨s, hs, honeLine⟩
    · cases hplacement
  · rintro ⟨s, hs, honeLine, hopening | hclosing⟩
    · obtain rfl := hfirst hs hopening
      obtain ⟨t, -, hruling⟩ := ruling_first (howns s hs) ho
      exact ⟨_, by rw [hruling, if_pos honeLine]⟩
    · obtain rfl := hlast hs hclosing
      obtain ⟨t, -, hruling⟩ := ruling_last (howns s hs) ho
      exact ⟨_, by rw [hruling, if_pos honeLine]⟩
  · rintro ⟨s, hs, honeLine, hopening⟩
    obtain rfl := hfirst hs hopening
    obtain ⟨t, -, hruling⟩ := ruling_first (howns s hs) ho
    exact ⟨file.bracePlacement t, by simp [hruling, honeLine]⟩
  · intro hstarts
    obtain ⟨s, hs, honeLine, hopening⟩ := hopens ⟨_, hstarts⟩
    obtain rfl := hfirst hs hopening
    obtain ⟨t, ht, hruling⟩ := ruling_first (howns s hs) ho
    refine bracePlacement_ne h ht (howns s hs).two_le ?_
    simpa [hruling, honeLine] using hstarts

end SourceFile

/-! ## What the summary says of braces -/

/-- The token is the opening brace of a scope of several lines. -/
def TokenRuling.opensLines : TokenRuling → Bool
  | code (.openingBrace _) => true
  | _ => false

/-- A token is judged as such an opening brace if its placement is told. -/
lemma TokenRuling.opensLines_iff {ruling : TokenRuling} :
    ruling.opensLines = true ↔ ∃ placement, ruling = .code (.openingBrace placement) := by
  unfold opensLines
  split <;> simp_all

/-- The breach is that of the rule about the placement of braces. -/
def Breach.isPlacement : Breach → Bool
  | inconsistentBrace .. => true
  | _ => false

/-- Findings call the rule by its name. -/
lemma Breach.isPlacement_iff {breach : Breach} :
    breach.isPlacement = true ↔ breach.name = "brace-placement" := by
  cases breach <;> simp [isPlacement, name]

namespace CodeSummary

/-- The summary has counted so many opening braces, some of them at the start of a line, and each of
those that were found to differ from the braces before them is a violation. -/
structure Tallies (s : CodeSummary) (starts opens : Nat) : Prop where
  starts : s.startsNewLine = starts
  opens : s.startsNewLine + s.staysInOldLine + s.undetermined = opens
  inconsistent : s.inconsistentBraces = s.violations.countP fun v => v.breach.isPlacement

variable {s : CodeSummary} {starts opens : Nat}

/-- The violation of another rule changes nothing about braces. -/
lemma Tallies.push (h : s.Tallies starts opens) (token : Nat) {breach : Breach}
    (hbreach : breach.isPlacement = false) : (s.push token breach).Tallies starts opens :=
  ⟨h.starts, h.opens, by simp [CodeSummary.push, h.inconsistent, hbreach]⟩

/-- Taking in the length of a name changes nothing about braces. -/
lemma Tallies.addLength (h : s.Tallies starts opens) (token : Nat) (length : LengthCheck) :
    (s.addLength token length).Tallies starts opens := by
  cases length with
  | tooShort =>
    exact Tallies.push (s := { s with tooShort := s.tooShort + 1 })
      ⟨h.starts, h.opens, h.inconsistent⟩ token (by rfl)
  | tooLong =>
    exact Tallies.push (s := { s with tooLong := s.tooLong + 1 })
      ⟨h.starts, h.opens, h.inconsistent⟩ token (by rfl)
  | withinBounds => exact h

/-- Taking in the style of a name changes nothing about braces. -/
lemma Tallies.addStyle (h : s.Tallies starts opens) (token : Nat) (n : NameOutcome) :
    (s.addStyle token n).Tallies starts opens := by
  unfold CodeSummary.addStyle
  split
  · exact h
  · exact Tallies.push (s := { s with badNaming := s.badNaming + 1 })
      ⟨h.starts, h.opens, h.inconsistent⟩ token (by rfl)

/-- Taking in a token of which a rule about spaces was asked changes nothing about braces. -/
lemma Tallies.addSpacing (h : s.Tallies starts opens) (token : Nat) (fine : Bool) {breach : Breach}
    (hbreach : breach.isPlacement = false) :
    (s.addSpacing token fine breach).Tallies starts opens := by
  unfold CodeSummary.addSpacing
  split
  · exact h
  · exact Tallies.push (s := { s with spacing := s.spacing + 1 })
      ⟨h.starts, h.opens, h.inconsistent⟩ token hbreach

/-- Counting a placement. -/
lemma Tallies.countPlacement (h : s.Tallies starts opens) (placement : BracePlacement) :
    (s.countPlacement placement).Tallies
      (starts + if placement = .startsNewLine then 1 else 0) (opens + 1) := by
  obtain ⟨rfl, rfl, hinconsistent⟩ := h
  cases placement <;> constructor <;> simp [CodeSummary.countPlacement, hinconsistent] <;> omega

/-- A brace that differs from the ones before it is counted and is a violation. -/
lemma Tallies.comparePlacement (h : s.Tallies starts opens) (token : Nat) (found : BracePlacement) :
    (s.comparePlacement token found).Tallies starts opens := by
  unfold CodeSummary.comparePlacement
  split
  · exact ⟨h.starts, h.opens, h.inconsistent⟩
  split
  · exact h
  · exact ⟨h.starts, h.opens, by
      simp [CodeSummary.push, h.inconsistent, Breach.isPlacement]⟩

/-- Taking in the outcome for a token. -/
lemma Tallies.add (h : s.Tallies starts opens) (o : TokenOutcome) :
    (s.add o).Tallies
      (starts + if o.ruling = .code (.openingBrace .startsNewLine) then 1 else 0)
      (opens + if o.ruling.opensLines then 1 else 0) := by
  obtain ⟨token, ruling, fine⟩ := o
  cases ruling with
  | code outcome =>
    have h : { s with tokens := s.tokens + 1 }.Tallies starts opens :=
      ⟨h.starts, h.opens, h.inconsistent⟩
    cases outcome with
    | openingBrace placement =>
      have hcount := h.countPlacement placement
      simp only [CodeSummary.add, addCode, addPlacement, TokenRuling.opensLines, TokenRuling.code.injEq,
        CodeOutcome.openingBrace.injEq]
      split
      · exact hcount
      · exact hcount.comparePlacement token placement
    | name n =>
      have h : { s with tokens := s.tokens + 1, names := s.names + 1 }.Tallies starts opens :=
        ⟨h.starts, h.opens, h.inconsistent⟩
      exact (h.addLength token n.length).addStyle token n
    | unchecked => exact h
    | _ => exact h.addSpacing token fine rfl
  | _ => exact h

/-- Taking in outcomes one after the other. -/
lemma Tallies.foldl_add (h : s.Tallies starts opens) (os : List TokenOutcome) :
    (os.foldl CodeSummary.add s).Tallies
      (starts + os.countP fun o => o.ruling = .code (.openingBrace .startsNewLine))
      (opens + os.countP fun o => o.ruling.opensLines) := by
  induction os generalizing s starts opens with
  | nil => exact h
  | cons o os ih =>
    have hrest := ih (h.add o)
    rw [List.foldl_cons, List.countP_cons, List.countP_cons]
    simpa [Nat.add_assoc, Nat.add_comm, Nat.add_left_comm] using hrest

end CodeSummary

namespace TokenOutcome

/-- A brace is misplaced only if its placement is determined and is not the first that was. -/
lemma of_inconsistentBrace_mem {o : TokenOutcome} {style : Option BracePlacement}
    {expected found : BracePlacement} (h : .inconsistentBrace expected found ∈ o.breaches style) :
    found ∈ o.placement? ∧ expected ∈ style ∧ expected ≠ found := by
  obtain ⟨token, ruling, fine⟩ := o
  cases ruling with
  | whitespace mixed => cases mixed <;> simp [breaches] at h
  | comment spaced => cases spaced <;> simp [breaches] at h
  | docComment check =>
    simp only [breaches, Option.mem_toList, DocCheck.breach?] at h
    split_ifs at h <;> simp at h
  | code outcome =>
    cases outcome with
    | name n =>
      rcases List.mem_append.1 h with hlength | hspelling
      · cases hcheck : n.length <;> simp [hcheck, LengthCheck.breaches] at hlength
      · cases hspelled : n.isWellSpelled <;> simp [hspelled] at hspelling
    | openingBrace placement =>
      simp only [breaches, CodeOutcome.breaches] at h
      cases hdetermined : placement.determined? with
      | none => simp [hdetermined] at h
      | some placement' =>
        cases style with
        | none => simp [hdetermined] at h
        | some first =>
          simp only [hdetermined, Option.elim_some, BracePlacement.breaches] at h
          split at h
          · simp at h
          · obtain ⟨rfl, rfl⟩ : expected = first ∧ found = placement' := by simpa using h
            exact ⟨hdetermined, rfl, ‹_›⟩
    | unchecked => simp [breaches, CodeOutcome.breaches] at h
    | _ => cases fine <;> simp [breaches, CodeOutcome.breaches] at h

/-- If all determined placements are the same, then no brace is misplaced. -/
lemma isPlacement_of_mem_violationsIn {os : List TokenOutcome} {common : BracePlacement}
    (hos : ∀ o ∈ os, ∀ placement ∈ o.placement?, placement = common) {style : Option BracePlacement}
    (hstyle : ∀ first ∈ style, first = common) {category : Category} {v : Violation}
    (h : v ∈ violationsIn category style os) : v.breach.isPlacement = false := by
  induction os generalizing style with
  | nil => simp [violationsIn] at h
  | cons o os ih =>
    obtain ⟨ho, hos⟩ := List.forall_mem_cons.1 hos
    rcases List.mem_append.1 h with hfirst | hrest
    · split at hfirst
      · obtain ⟨breach, hbreach, rfl⟩ := List.mem_map.1 hfirst
        cases breach with
        | inconsistentBrace expected found =>
          obtain ⟨hfound, hexpected, hne⟩ := of_inconsistentBrace_mem hbreach
          exact absurd ((hstyle expected hexpected).trans (ho found hfound).symm) hne
        | _ => rfl
      · simp at hfirst
    · refine ih hos ?_ hrest
      cases style with
      | none => simpa using ho
      | some first => exact hstyle

/-- A determined placement is at the end of a line, if it is not at the start of one. -/
lemma placement?_eq {o : TokenOutcome} (h : o.ruling ≠ .code (.openingBrace .startsNewLine)) :
    ∀ placement ∈ o.placement?, placement = .staysInOldLine := by
  intro placement hplacement
  obtain ⟨token, ruling, fine⟩ := o
  cases ruling with
  | code outcome =>
    cases outcome with
    | openingBrace found =>
      cases found with
      | startsNewLine => exact absurd rfl h
      | staysInOldLine => exact (Option.some.inj hplacement).symm
      | undetermined => cases hplacement
    | _ => cases hplacement
  | _ => cases hplacement

end TokenOutcome

/-- No line is a misplaced brace. -/
lemma LineOutcome.isPlacement_of_mem_breaches (o : LineOutcome) {breach : Breach}
    (h : breach ∈ o.breaches) : breach.isPlacement = false := by
  rcases List.mem_append.1 h with hwidth | hend
  · split at hwidth
    · obtain rfl := List.mem_singleton.1 hwidth
      rfl
    · simp at hwidth
  · split at hend
    · obtain rfl := List.mem_singleton.1 hend
      rfl
    · simp at hend

namespace Verdict

/-- The summary of code takes in the outcomes for tokens. -/
lemma code_ofOutcomes (tokens : List TokenOutcome) (lines : List LineOutcome) :
    (ofOutcomes tokens lines).code = tokens.foldl CodeSummary.add {} := by
  have hlines (v : Verdict) : (lines.foldl addLine v).code = v.code := by
    induction lines generalizing v with
    | nil => rfl
    | cons o lines ih => exact ih (v.addLine o)
  rw [ofOutcomes, hlines]
  exact (List.foldl_hom Verdict.code fun _ _ => rfl).symm

/-- If no brace is found to start a line, then none is misplaced. -/
lemma isPlacement_of_mem_violations {tokens : List TokenOutcome} {lines : List LineOutcome}
    (h : ∀ o ∈ tokens, o.ruling ≠ .code (.openingBrace .startsNewLine)) {category : Category}
    {v : Violation} (hv : (category, v) ∈ (ofOutcomes tokens lines).violations) :
    v.breach.isPlacement = false := by
  rw [mem_violations_iff, ofCategory_ofOutcomes] at hv
  rcases List.mem_append.1 hv with htokens | hlines
  · exact TokenOutcome.isPlacement_of_mem_violationsIn
      (fun o ho => TokenOutcome.placement?_eq (h o ho)) (by simp) htokens
  · split at hlines
    · obtain ⟨o, -, hline⟩ := List.mem_flatMap.1 hlines
      obtain ⟨breach, hbreach, rfl⟩ := List.mem_map.1 hline
      exact o.isPlacement_of_mem_breaches hbreach
    · simp at hlines

/-- If no brace is found to start a line, then no finding is about the placement of braces. -/
lemma rule_ne_of_mem_findings {tokens : List TokenOutcome} {lines : List LineOutcome}
    (h : ∀ o ∈ tokens, o.ruling ≠ .code (.openingBrace .startsNewLine)) {table : LineTable}
    {f : Finding} (hf : f ∈ (ofOutcomes tokens lines).findings table) :
    f.rule ≠ "brace-placement" := by
  intro hrule
  obtain ⟨⟨category, v⟩, hv, rfl⟩ := List.mem_map.1 hf
  rw [Finding.rule_ofViolation, ← Breach.isPlacement_iff, isPlacement_of_mem_violations h hv] at hrule
  cases hrule

/-- If no brace is found to start a line, then the summary counts the others and finds none misplaced. -/
lemma code_of_placed {tokens : List TokenOutcome} {lines : List LineOutcome}
    (h : ∀ o ∈ tokens, o.ruling ≠ .code (.openingBrace .startsNewLine)) :
    (ofOutcomes tokens lines).code.startsNewLine = 0 ∧
      (ofOutcomes tokens lines).code.inconsistentBraces = 0 ∧
      (ofOutcomes tokens lines).code.staysInOldLine + (ofOutcomes tokens lines).code.undetermined =
        tokens.countP fun o => o.ruling.opensLines := by
  have hempty : ({} : CodeSummary).Tallies 0 0 := ⟨rfl, rfl, rfl⟩
  have htallies := hempty.foldl_add tokens
  rw [← code_ofOutcomes tokens lines,
    List.countP_eq_zero.2 (fun o ho => by simpa using h o ho)] at htallies
  refine ⟨htallies.starts, ?_, ?_⟩
  · rw [htallies.inconsistent, List.countP_eq_zero]
    intro v hv
    have hcode : (.code, v) ∈ (ofOutcomes tokens lines).violations := mem_violations_iff.2 hv
    simp [isPlacement_of_mem_violations h hcode]
  · have hopens := htallies.opens
    rw [htallies.starts] at hopens
    simpa using hopens

end Verdict

/-! ## The braces of a file -/

namespace SourceFile

variable {file : SourceFile} {settings : Settings} {outcomes : List TokenOutcome}

/-- An outcome for a token of a file is the one for the token that it names. -/
lemma judgeToken_of_mem_tokenOutcomes (h : file.tokenOutcomes settings = .ok outcomes)
    {o : TokenOutcome} (ho : o ∈ outcomes) :
    o.token < file.table.count ∧ file.judgeToken settings o.token = .ok o := by
  obtain ⟨n, hn, hjudge⟩ := exists_of_mem_of_mapM_eq_ok h ho
  rw [(judgeToken_eq_ok hjudge).1]
  exact ⟨List.mem_range.1 hn, hjudge⟩

/-- As many opening braces are judged by their placement as there are scopes of several lines. -/
lemma countP_opensLines (h : file.tokenOutcomes settings = .ok outcomes) {blocks : List Scope}
    (hsorted : blocks.Pairwise fun s t => s.first < t.first)
    (howns : ∀ s ∈ blocks, s.OwnsBraces file)
    (haccounts : ∀ o ∈ outcomes, o.ruling.Accounts blocks o.token) :
    outcomes.countP (fun o => o.ruling.opensLines) = blocks.countP fun s => !s.oneLine := by
  have htokens : ((outcomes.filter fun o => o.ruling.opensLines).map TokenOutcome.token).Nodup := by
    refine List.Nodup.sublist (List.filter_sublist.map _) ?_
    rw [map_token_tokenOutcomes h]
    exact List.nodup_range
  have hscopes : ((blocks.filter fun s => !s.oneLine).map Scope.first).Nodup := by
    refine List.Nodup.sublist (List.filter_sublist.map _) ?_
    exact List.pairwise_map.2 (hsorted.imp fun hlt => Nat.ne_of_lt hlt)
  -- Both lists hold the numbers of the same tokens.
  have hperm := (List.perm_ext_iff_of_nodup htokens hscopes).2 fun n => by
    simp only [List.mem_map, List.mem_filter, Bool.not_eq_true']
    constructor
    · rintro ⟨o, ⟨ho, hopens⟩, rfl⟩
      obtain ⟨s, hs, honeLine, hopening⟩ :=
        (haccounts o ho).opens.1 (TokenRuling.opensLines_iff.1 hopens)
      exact ⟨s, ⟨hs, honeLine⟩, Option.some.inj ((howns s hs).opening.symm.trans hopening)⟩
    · rintro ⟨s, ⟨hs, honeLine⟩, rfl⟩
      obtain ⟨t, -, ht, -⟩ := (howns s hs).opens
      have hn : s.first ∈ outcomes.map TokenOutcome.token := by
        rw [map_token_tokenOutcomes h, List.mem_range]
        exact (Array.getElem?_eq_some_iff.1 ht).1
      obtain ⟨o, ho, htoken⟩ := List.mem_map.1 hn
      refine ⟨o, ⟨ho, TokenRuling.opensLines_iff.2 ?_⟩, htoken⟩
      exact (haccounts o ho).opens.2 ⟨s, hs, honeLine, by rw [htoken, (howns s hs).opening]⟩
  simpa [List.countP_eq_length_filter] using hperm.length_eq

end SourceFile

/-- On a file that is analyzed, no brace is found to start a line or to be misplaced.  All opening
braces of scopes of several lines are counted, the two braces of a scope on one line and no other
tokens are judged as such, and every opening brace is judged in one of these ways. -/
theorem braces_are_accounted_for {source : String} {settings : Settings} {a : Analysis}
    (h : analyzeSource source settings = .ok a) :
    a.verdict.code.startsNewLine = 0 ∧ a.verdict.code.inconsistentBraces = 0 ∧
    (∀ f ∈ a.findings, f.rule ≠ "brace-placement") ∧
    ∃ blocks, a.file.model.scopes.toList = .file :: blocks ∧
      a.verdict.code.staysInOldLine + a.verdict.code.undetermined =
        blocks.countP (fun s => !s.oneLine) ∧
      (∀ s ∈ blocks, ∃ opening closing, s.opening = some opening.number ∧
        s.closing = some closing.number ∧ a.file.table.token opening.number = .ok opening ∧
        a.file.table.token closing.number = .ok closing ∧ opening.kind = .lBrace ∧
        closing.kind = .rBrace) ∧
      ∀ n t, a.file.table.token n = .ok t → ∃ o, a.file.judgeToken settings n = .ok o ∧
        ((∃ spaced, o.ruling = .code (.oneLineBrace spaced)) ↔
          ∃ s ∈ blocks, s.oneLine = true ∧ (s.opening = some n ∨ s.closing = some n)) ∧
        (t.kind = .lBrace → (∃ spaced, o.ruling = .code (.oneLineBrace spaced)) ∨
          ∃ placement, o.ruling = .code (.openingBrace placement)) := by
  obtain ⟨file, hfile, h⟩ := exists_of_bind_eq_ok h
  obtain ⟨verdict, hverdict, h⟩ := exists_of_bind_eq_ok h
  obtain rfl := Except.ok.inj h
  obtain ⟨outcomes, houtcomes, rfl⟩ :=
    exists_of_map_eq_ok ((file.analyze_eq settings).symm.trans hverdict)
  obtain ⟨blocks, hblocks, hsorted, howns, hbraces⟩ := SourceFile.scopes_own_braces hfile
  have haccounts : ∀ o ∈ outcomes, o.ruling.Accounts blocks o.token := by
    intro o ho
    obtain ⟨hn, hjudge⟩ := SourceFile.judgeToken_of_mem_tokenOutcomes houtcomes ho
    exact SourceFile.accounts_of_judgeToken hfile hblocks howns hn hjudge
  have hplaced : ∀ o ∈ outcomes, o.ruling ≠ .code (.openingBrace .startsNewLine) :=
    fun o ho => (haccounts o ho).placed
  obtain ⟨hstarts, hinconsistent, hcount⟩ := Verdict.code_of_placed hplaced
  refine ⟨hstarts, hinconsistent, fun f => Verdict.rule_ne_of_mem_findings hplaced, blocks, hblocks,
    ?_, ?_, ?_⟩
  · exact hcount.trans (SourceFile.countP_opensLines houtcomes hsorted howns haccounts)
  · intro s hs
    obtain ⟨opening, -, hopening, hopens, hfirst, -⟩ := (howns s hs).opens
    obtain ⟨closing, -, hclosing, hcloses, hlast, -⟩ := (howns s hs).closes
    refine ⟨opening, closing, ?_, ?_, ?_, ?_, hopens, hcloses⟩
    · rw [hfirst, (howns s hs).opening]
    · rw [hlast, (howns s hs).closing]
    · rw [hfirst, LineTable.token_eq_ok_iff, hopening]
    · rw [hlast, LineTable.token_eq_ok_iff, hclosing]
  · intro n t ht
    rw [LineTable.token_eq_ok_iff] at ht
    have hn : n < file.table.count := (Array.getElem?_eq_some_iff.1 ht).1
    obtain ⟨o, ho⟩ :=
      SourceFile.judgeToken_succeeds (SourceFile.covers_of_parse hfile) settings hn
    have haccounts := SourceFile.accounts_of_judgeToken hfile hblocks howns hn ho
    refine ⟨o, ho, haccounts.oneLine, fun hkind => ?_⟩
    obtain ⟨s, hs, hopening⟩ := hbraces n t ht hkind
    cases honeLine : s.oneLine with
    | true => exact .inl (haccounts.oneLine.2 ⟨s, hs, honeLine, .inl hopening⟩)
    | false => exact .inr (haccounts.opens.2 ⟨s, hs, honeLine, hopening⟩)

/-- The braces of a class with an array on one line and a method whose body ends on the next. -/
theorem braces_of_small_class :
    ∃ a, analyzeSource "class A \x7b\nint[] a=\x7b1\x7d;void f()\x7b\n\x7d\x7d" {} = .ok a ∧
      a.verdict.code.startsNewLine = 0 ∧
      a.verdict.code.staysInOldLine + a.verdict.code.undetermined = 2 ∧
      ∃ o, a.file.judgeToken {} 11 = .ok o ∧ ∃ spaced, o.ruling = .code (.oneLineBrace spaced) := by
  have hread : ((SourceFile.parse
      "class A \x7b\nint[] a=\x7b1\x7d;void f()\x7b\n\x7d\x7d").toOption.map fun file =>
        (file.table.count, file.model.scopes.toList.map fun s => (s.opening, s.oneLine))) =
      some (23, [(none, false), (some 4, false), (some 11, true), (some 20, false)]) := by
    decide +kernel
  cases hfile : SourceFile.parse "class A \x7b\nint[] a=\x7b1\x7d;void f()\x7b\n\x7d\x7d" with
  | error e => simp [hfile, Except.toOption] at hread
  | ok file =>
    obtain ⟨verdict, -, ha⟩ := analyzeSource_of_parse hfile {}
    obtain ⟨hstarts, -, -, blocks, hblocks, hcount, -, houtcomes⟩ := braces_are_accounted_for ha
    dsimp only at hblocks
    simp only [hfile, Except.toOption, Option.map_some, Option.some.injEq, Prod.mk.injEq, hblocks,
      List.map_cons, List.cons.injEq] at hread
    obtain ⟨htokens, -, hscopes⟩ := hread
    have hlong : blocks.countP (fun s => !s.oneLine) = 2 := by
      have hmap := congrArg (List.countP fun p : Option Nat × Bool => !p.2) hscopes
      rwa [List.countP_map] at hmap
    have hshort : (some 11, true) ∈ blocks.map fun s => (s.opening, s.oneLine) := by simp [hscopes]
    obtain ⟨s, hs, hscope⟩ := List.mem_map.1 hshort
    obtain ⟨hopening, honeLine⟩ := Prod.mk.inj hscope
    obtain ⟨t, ht⟩ : ∃ t, file.table.tokens[11]? = some t :=
      ⟨_, Array.getElem?_eq_getElem (htokens ▸ (by decide : 11 < 23))⟩
    obtain ⟨o, ho, hbrace, -⟩ := houtcomes 11 t (LineTable.token_eq_ok_iff.2 ht)
    exact ⟨_, ha, hstarts, hcount.trans hlong, o, ho, hbrace.2 ⟨s, hs, honeLine, .inl hopening⟩⟩

end JavaLint
