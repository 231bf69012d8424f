import JavaLint.Proofs.Token.Order
import JavaLint.Proofs.Verdict.Braces
import Mathlib.Tactic.Common

/-!
# The verdict on operators

The rule about the spaces around operators is broken by the outcomes for operators that lack one, and by
no others.  So the violations of this rule in a verdict are those outcomes in their order:
`Verdict.filter_operatorSpacing`.  Only tokens that the model knows as operators are judged as such
(`SourceFile.isLowOperator_of_lacksSpace`).
-/

namespace JavaLint

namespace TokenOutcome

/-- The token is judged as an operator and lacks a space. -/
def lacksSpace (o : TokenOutcome) : Bool :=
  match o.ruling with
  | .code (.lowOperator _ _) => !o.fine
  | _ => false

/-- An outcome breaks the rule about operators if it is for an operator that lacks a space. -/
lemma filter_breaches (o : TokenOutcome) (style : Option BracePlacement) :
    (o.breaches style).filter (fun breach => breach = .operatorSpacing) =
      if o.lacksSpace then [.operatorSpacing] else [] := by
  obtain ⟨token, ruling, fine⟩ := o
  cases ruling with
  | whitespace mixed => cases mixed <;> simp [breaches, lacksSpace]
  | comment spaced => cases spaced <;> simp [breaches, lacksSpace]
  | docComment check =>
    simp only [breaches, lacksSpace, DocCheck.breach?]
    split_ifs <;> simp at *
  | code outcome =>
    cases outcome with
    | name n =>
      cases hlength : n.length <;> cases hspelled : n.isWellSpelled <;>
        simp [breaches, CodeOutcome.breaches, NameOutcome.breaches, LengthCheck.breaches, lacksSpace,
          hlength, hspelled]
    | openingBrace placement =>
      cases hdetermined : placement.determined? with
      | none => simp [breaches, CodeOutcome.breaches, lacksSpace, hdetermined]
      | some found =>
        cases style with
        | none => simp [breaches, CodeOutcome.breaches, lacksSpace, hdetermined]
        | some expected =>
          by_cases hplaced : expected = found <;>
            simp [breaches, CodeOutcome.breaches, lacksSpace, hdetermined, BracePlacement.breaches,
              hplaced]
    | unchecked => simp [breaches, CodeOutcome.breaches, lacksSpace]
    | _ => cases fine <;> simp [breaches, CodeOutcome.breaches, lacksSpace]

/-- An operator is code. -/
lemma category_of_lacksSpace {o : TokenOutcome} (h : o.lacksSpace = true) :
    o.ruling.category = .code := by
  unfold lacksSpace at h
  split at h
  · rename_i hruling
    rw [hruling]
    rfl
  · cases h

/-- The rule about operators is broken in the category of code, once for each operator that lacks a
space. -/
lemma filter_violationsIn (category : Category) (style : Option BracePlacement)
    (os : List TokenOutcome) :
    (violationsIn category style os).filter (fun v => v.breach = .operatorSpacing) =
      if category = .code then
        (os.filter lacksSpace).map fun o => ⟨.token o.token, .operatorSpacing⟩
      else [] := by
  induction os generalizing style with
  | nil => simp [violationsIn]
  | cons o os ih =>
    have hmap := o.filter_breaches style
    rw [violationsIn, List.filter_append, ih, apply_ite (List.filter _), List.filter_map,
      Function.comp_def, hmap]
    cases hlacks : o.lacksSpace with
    | true =>
      rw [category_of_lacksSpace hlacks]
      by_cases hcategory : category = .code <;> simp [hcategory, hlacks, eq_comm]
    | false => simp [hlacks]

end TokenOutcome

namespace Verdict

/-- What a category holds of the rule about operators. -/
lemma filter_ofCategory (tokens : List TokenOutcome) (lines : List LineOutcome)
    (category : Category) :
    ((ofOutcomes tokens lines).ofCategory category).filter
        (fun v => v.breach = .operatorSpacing) =
      if category = .code then
        (tokens.filter TokenOutcome.lacksSpace).map fun o => ⟨.token o.token, .operatorSpacing⟩
      else [] := by
  have hlines : (LineOutcome.violationsOf lines).filter (fun v => v.breach = .operatorSpacing) = [] := by
    rw [List.filter_eq_nil_iff]
    intro v hv
    obtain ⟨o, -, hv⟩ := List.mem_flatMap.1 hv
    obtain ⟨breach, hbreach, rfl⟩ := List.mem_map.1 hv
    unfold LineOutcome.breaches at hbreach
    cases htooLong : o.tooLong <;> cases htrailing : o.trailingSpace <;>
      simp [htooLong, htrailing] at hbreach ⊢ <;> grind
  rw [ofCategory_ofOutcomes, List.filter_append, TokenOutcome.filter_violationsIn,
    apply_ite (List.filter _), hlines]
  simp

/-- The rule about operators is broken once for each operator that lacks a space, in their order. -/
theorem filter_operatorSpacing (tokens : List TokenOutcome) (lines : List LineOutcome) :
    (ofOutcomes tokens lines).violations.filter (fun p => p.2.breach = .operatorSpacing) =
      (tokens.filter TokenOutcome.lacksSpace).map fun o =>
        (.code, ⟨.token o.token, .operatorSpacing⟩) := by
  have hcategory (category : Category) :=
    filter_ofCategory tokens lines category
  have hcode := hcategory .code
  have hwhitespace := hcategory .whitespace
  have hcomment := hcategory .comment
  have hdoc := hcategory .docComment
  have hline := hcategory .line
  simp only [ofCategory, reduceCtorEq, if_true, if_false] at hcode hwhitespace hcomment hdoc hline
  simp [violations, List.filter_map, Function.comp_def, hcode, hwhitespace, hcomment, hdoc, hline]

end Verdict

namespace SourceFile

variable {file : SourceFile} {settings : Settings}

/-- The outcome for a code token is what the rules for code say about it. -/
lemma judgeToken_of_judgeCode {n : Nat} {t : Token} {outcome : CodeOutcome}
    (ht : file.table.tokens[n]? = some t) (hcode : t.isCode = true)
    (hjudge : file.judgeCode settings t = .ok outcome) :
    file.judgeToken settings n = .ok ⟨n, .code outcome, outcome.isFine⟩ := by
  have hchannel : t.channel = .code := by simpa [Token.isCode] using hcode
  rw [judgeToken, LineTable.token_eq_ok_iff.2 ht]
  simp [ruling, hchannel, hjudge, Except.map, bind, Except.bind, pure, Except.pure, TokenRuling.isFine]

/-- A code token that the model knows as an operator is judged as one. -/
lemma judgeCode_of_isLowOperator {t : Token} (h : file.isLowOperator t = true) :
    file.judgeCode settings t = .ok (file.judgeOperator t) := by
  unfold isLowOperator at h
  split at h
  · rename_i c hc
    have hrole : c.role = .lowOperator := by simpa using h
    simp [judgeCode, hc, hrole, Role.isDeclaredName, Role.isTypeName, bind, Except.bind, pure,
      Except.pure]
  · cases h

/-- Only tokens that the model knows as operators are judged as such. -/
lemma isLowOperator_of_judgeCode {t : Token} {before after : Bool}
    (h : file.judgeCode settings t = .ok (.lowOperator before after)) :
    file.isLowOperator t = true := by
  obtain ⟨c, hc, h⟩ := exists_of_bind_eq_ok h
  have hrole : c.role = .lowOperator := by
    split at h
    · unfold judgeName at h
      split at h
      · cases h
      · cases Except.ok.inj h
    split at h
    · obtain ⟨s, -, h⟩ := exists_of_bind_eq_ok h
      have hjudge := Except.ok.inj h
      unfold judgeOpeningBrace at hjudge
      split_ifs at hjudge
    · obtain ⟨s, -, h⟩ := exists_of_bind_eq_ok h
      have hjudge := Except.ok.inj h
      unfold judgeClosingBrace at hjudge
      split_ifs at hjudge
    · cases Except.ok.inj h
    · cases Except.ok.inj h
    · assumption
    · cases Except.ok.inj h
  simp [isLowOperator, hc, hrole]

/-- A token that lacks a space as an operator is known as one. -/
lemma isLowOperator_of_lacksSpace {n : Nat} {t : Token} (ht : file.table.token n = .ok t)
    {o : TokenOutcome} (ho : file.judgeToken settings n = .ok o) (hlacks : o.lacksSpace = true) :
    file.isLowOperator t = true := by
  have hruling := ruling_of_judgeToken ht ho
  unfold TokenOutcome.lacksSpace at hlacks
  split at hlacks
  · rename_i before after hoperator
    rw [hoperator] at hruling
    exact isLowOperator_of_judgeCode (judgeCode_of_ruling hruling)
  · cases hlacks

/-- A token at which the rule about operators is broken is known as one. -/
lemma isLowOperator_of_violation {verdict : Verdict} (h : file.analyze settings = .ok verdict)
    {category : Category} {n : Nat}
    (hv : (category, ⟨.token n, .operatorSpacing⟩) ∈ verdict.violations) :
    ∃ t, file.table.token n = .ok t ∧ file.isLowOperator t = true := by
  obtain ⟨outcomes, houtcomes, rfl⟩ := exists_of_map_eq_ok ((file.analyze_eq settings).symm.trans h)
  have hfilter := List.mem_filter_of_mem (p := fun p => p.2.breach = .operatorSpacing) hv (by simp)
  rw [Verdict.filter_operatorSpacing] at hfilter
  obtain ⟨o, ho, heq⟩ := List.mem_map.1 hfilter
  obtain ⟨ho, hlacks⟩ := List.mem_filter.1 ho
  obtain ⟨hlt, hjudge⟩ := judgeToken_of_mem_tokenOutcomes houtcomes ho
  simp only [Prod.mk.injEq, Violation.mk.injEq, Item.token.injEq] at heq
  obtain ⟨-, rfl, -⟩ := heq
  obtain ⟨t, ht⟩ := LineTable.exists_token hlt
  rw [← LineTable.token_eq_ok_iff] at ht
  exact ⟨t, ht, isLowOperator_of_lacksSpace ht hjudge hlacks⟩

end SourceFile

end JavaLint
