import JavaLint.Proofs.Grammar.Java
import JavaLint.Proofs.Grammar.Levels
import Mathlib.Tactic.Common

/-!
# Brackets in Java files

The rules of the grammar keep contracts about brackets (`Rule.contract`).  Most rules may be called
before any words and stop anywhere; a few take their first word as it comes and are called only
where that word is known, and the rules for the insides of braces stop only before a closing brace.

`form_leads` runs the machine of `Level` through the rules one by one.  So the brackets of every
file that is read are in order: `readShape_bracketed`.
-/

namespace JavaLint

open Level

namespace Rule

open Form Lookahead

/-- The words before which a rule may be called. -/
def Needs : Rule → List Kind → Prop
  | annotationUse, ks => ∃ ks', ks = .atSign :: ks'
  | typeParams, ks | typeArgs, ks => ∃ ks', ks = .lt :: ks'
  | creator, ks => ∃ ks', ks = .keyword .newKw :: ks'
  | arrayInit, ks => ∃ ks', ks = .lBrace :: ks'
  | forStatement, ks => ∃ ks', ks = .keyword .forKw :: ks'
  | _, _ => True

/-- The words before which a rule stops. -/
def Ensures : Rule → List Kind → Prop
  | directives, ks | members, ks | blockStatements, ks | switchItems, ks =>
    ∃ ks', ks = .rBrace :: ks'
  | _, _ => True

/-- What the rules of the grammar promise about brackets.  Only the directives of a module are read
without a look at round and square ones. -/
def contract : Contract Rule where
  loose rule := rule = directives || rule = directive
  needs := Needs
  ensures := Ensures
  headed rule := rule = typeDecl

@[simp] lemma contract_loose (rule : Rule) :
    contract.loose rule = (rule = directives || rule = directive) := rfl

@[simp] lemma contract_needs : contract.needs = Needs := rfl

@[simp] lemma contract_ensures : contract.ensures = Ensures := rfl

@[simp] lemma contract_headed (rule : Rule) : contract.headed rule ↔ rule = typeDecl := Iff.rfl

variable {loose : Bool} {spare : Nat} {level : Level} {s : List Bracket}
  {ks : List Kind} {goal : Level → List Kind → Prop} {a b : Part}

/-! ## Words that are no brackets -/

/-- A name is no bracket. -/
lemma markIn_of_isName {k : Kind} (h : k.isName = true) : k.markIn loose = none := by
  cases k <;> simp_all [Kind.isName, Kind.mark?, Kind.markIn]

/-- In most places all brackets count. -/
@[simp] lemma markIn_false (k : Kind) : k.markIn false = k.mark? := by
  cases k <;> rfl

/-! ## The machine on common parts -/

/-- A word that is no bracket leaves the level as it is. -/
lemma leads_take (hplain : ∀ k ks', ks = k :: ks' → k.markIn loose = none)
    (h : ∀ k ks', ks = k :: ks' → goal (within s) ks') :
    (take : Part).Leads contract loose spare (within s) ks goal := by
  rintro k ks' rfl
  rw [hplain k ks' rfl, step_within_none]
  exact h k ks' rfl

/-- A word that is known to be no bracket leaves the level as it is. -/
lemma leads_take_plain {k : Kind} (hk : k.markIn loose = none) (h : goal (within s) ks) :
    (take : Part).Leads contract loose spare (within s) (k :: ks) goal := by
  rwa [leads_take_cons, hk, step_within_none]

/-- A part that is chosen by the kind of the next word knows that word. -/
@[simp ↓] lemma leads_ite_atKind {k : Kind} :
    (ite (atKind k) a b).Leads contract loose spare level ks goal ↔
      (∀ ks', ks = k :: ks' → a.Leads contract loose spare level (k :: ks') goal) ∧
        (atKind k ks = false → b.Leads contract loose spare level ks goal) := by
  rw [leads_ite, atKind_iff]
  constructor
  · rintro ⟨ha, hb⟩
    exact ⟨fun ks' hks => hks ▸ ha ⟨ks', hks⟩, hb⟩
  · rintro ⟨ha, hb⟩
    refine ⟨?_, hb⟩
    rintro ⟨ks', rfl⟩
    exact ha ks' rfl

/-- The same where the choice is made among more than two parts. -/
@[simp ↓] lemma leads_if_atKind {k : Kind} :
    (if atKind k ks = true then a else b).Leads contract loose spare level ks goal ↔
      (∀ ks', ks = k :: ks' → a.Leads contract loose spare level (k :: ks') goal) ∧
        (atKind k ks = false → b.Leads contract loose spare level ks goal) := by
  rw [← leads_ite_atKind]
  rfl

/-- A part that is chosen by a keyword knows that word. -/
@[simp ↓] lemma leads_ite_atWord {w : Keyword} :
    (ite (atWord w) a b).Leads contract loose spare level ks goal ↔
      (∀ ks', ks = .keyword w :: ks' →
        a.Leads contract loose spare level (.keyword w :: ks') goal) ∧
      (atWord w ks = false → b.Leads contract loose spare level ks goal) :=
  leads_ite_atKind

/-- The same where the choice is made among more than two parts. -/
@[simp ↓] lemma leads_if_atWord {w : Keyword} :
    (if atWord w ks = true then a else b).Leads contract loose spare level ks goal ↔
      (∀ ks', ks = .keyword w :: ks' →
        a.Leads contract loose spare level (.keyword w :: ks') goal) ∧
      (atWord w ks = false → b.Leads contract loose spare level ks goal) :=
  leads_if_atKind

/-- A part that is chosen by the kind of the next word, and by what follows, knows that word. -/
@[simp ↓] lemma leads_ite_atKind_and {k : Kind} {test : List Kind → Bool} :
    (ite (fun ks => atKind k ks && test ks) a b).Leads contract loose spare level ks goal ↔
      (∀ ks', ks = k :: ks' → test (k :: ks') = true →
        a.Leads contract loose spare level (k :: ks') goal) ∧
      ((atKind k ks && test ks) = false → b.Leads contract loose spare level ks goal) := by
  rw [leads_ite, Bool.and_eq_true, atKind_iff]
  constructor
  · rintro ⟨ha, hb⟩
    refine ⟨?_, hb⟩
    rintro ks' rfl htest
    exact ha ⟨⟨ks', rfl⟩, htest⟩
  · rintro ⟨ha, hb⟩
    refine ⟨?_, hb⟩
    rintro ⟨⟨ks', rfl⟩, htest⟩
    exact ha ks' rfl htest

/-- A part that is chosen by one of two keywords knows that word. -/
@[simp ↓] lemma leads_ite_atWord_or {w w' : Keyword} :
    (ite (fun ks => atWord w ks || atWord w' ks) a b).Leads contract loose spare level ks goal ↔
      (∀ v ks', (v = w ∨ v = w') → ks = .keyword v :: ks' →
        a.Leads contract loose spare level (.keyword v :: ks') goal) ∧
      ((atWord w ks || atWord w' ks) = false → b.Leads contract loose spare level ks goal) := by
  rw [leads_ite, Bool.or_eq_true, atWord, atWord, atKind_iff, atKind_iff]
  constructor
  · rintro ⟨ha, hb⟩
    refine ⟨?_, hb⟩
    rintro v ks' (rfl | rfl) rfl
    · exact ha (.inl ⟨ks', rfl⟩)
    · exact ha (.inr ⟨ks', rfl⟩)
  · rintro ⟨ha, hb⟩
    refine ⟨?_, hb⟩
    rintro (⟨ks', rfl⟩ | ⟨ks', rfl⟩)
    · exact ha w ks' (.inl rfl) rfl
    · exact ha w' ks' (.inr rfl) rfl

/-- A part that is chosen by a name knows that the next word is one. -/
lemma leads_ite_atName :
    (ite atName a b).Leads contract loose spare level ks goal ↔
      (∀ k ks', k.isName = true → ks = k :: ks' →
        a.Leads contract loose spare level (k :: ks') goal) ∧
      (atName ks = false → b.Leads contract loose spare level ks goal) := by
  rw [leads_ite, atName_iff]
  constructor
  · rintro ⟨ha, hb⟩
    exact ⟨fun k ks' hk hks => hks ▸ ha ⟨k, ks', hks, hk⟩, hb⟩
  · rintro ⟨ha, hb⟩
    refine ⟨?_, hb⟩
    rintro ⟨k, ks', rfl, hk⟩
    exact ha k ks' hk rfl

/-- A name that has to stand here is a word like any other to the machine. -/
@[simp ↓] lemma leads_expectName {what : String} :
    (expectName what).Leads contract loose spare (within s) ks goal ↔
      ∀ k ks', k.isName = true → ks = k :: ks' → goal (within s) ks' := by
  rw [expectName, leads_ite_atName]
  simp +contextual [markIn_of_isName]

/-- A name that may stand here is a word like any other to the machine. -/
@[simp ↓] lemma leads_ite_atName_take :
    (ite atName take b).Leads contract loose spare (within s) ks goal ↔
      (∀ k ks', k.isName = true → ks = k :: ks' → goal (within s) ks') ∧
      (atName ks = false → b.Leads contract loose spare (within s) ks goal) := by
  rw [leads_ite_atName]
  simp +contextual [markIn_of_isName]

/-- The node of a declared name has a word in it. -/
@[simp ↓] lemma leads_declaredName {what : String} :
    (declaredName what).Leads contract loose spare (within s) ks goal ↔
      ∀ k ks', k.isName = true → ks = k :: ks' → goal (within s) ks' := by
  rw [declaredName, leads_ite_atName]
  simp +contextual [markIn_of_isName, IsWithin, Level.first, last, NodeKind.isBraced]

/-- What stands in braces is read to the closing brace. -/
lemma leads_untilBrace {part : Part}
    (h : ∀ k ks', ks = k :: ks' → part.Leads contract false spare level ks goal)
    (hend : ∀ ks', goal level (.rBrace :: ks')) :
    (untilBrace part).Leads contract false spare level ks goal := by
  simp only [untilBrace, Leads]
  split
  · trivial
  · exact hend _
  · rename_i hne _
    cases ks with
    | nil => exact (hne rfl).elim
    | cons k ks => exact h k ks rfl

/-! The parts of rules are unfolded from here on, and nowhere else. -/

/-- A word that has to stand here is one that is looked for. -/
lemma expect_eq {k : Kind} {what : String} :
    (expect k what : Part) = ite (atKind k) take (fail what) := rfl

/-- A word that may stand here is one that is looked for. -/
lemma eat_eq {k : Kind} : (eat k : Part) = ite (atKind k) take empty := rfl

attribute [local simp] Heads Needs Ensures IsWithin Level.first last NodeKind.isBraced
  NodeKind.isLoose Kind.mark? opt expect_eq eat_eq expectWord semicolon braces parens unlessAt more
  qualifiedName modifiers arguments parenExpr brackets formalParams throwsClause packageDecl
  importDecl enumConstant constructorDecl methodDecl fieldDecl declaredMember localVar resource
  catchClause tryStatement forHeader ruleBody lambdaParams cast creatorBody

/-- A type without dimensions leaves no bracket open. -/
@[simp ↓] lemma leads_typeCore (h : ∀ ks', goal (within s) ks') :
    typeCore.Leads contract false spare (within s) ks goal := by
  have hprimitive : ∀ k : Kind, (k.isPrimitive || k = .keyword .voidKw) = true →
      k.markIn false = none := by
    intro k hk
    cases k <;> simp_all [Kind.isPrimitive]
  simp only [typeCore, leads_append]
  refine ⟨trivial, rfl, trivial, fun ks' _ => ?_⟩
  simp only [leads_ite, leads_append, first_iff, atName_iff]
  refine ⟨?_, fun _ => ⟨?_, fun _ => trivial⟩⟩
  · rintro ⟨k, ks, rfl, hk⟩
    exact leads_take_plain (hprimitive k hk) (h ks)
  · rintro ⟨k, ks, rfl, hk⟩
    exact leads_take_plain (markIn_of_isName hk) (by simp [h])

/-- The name of a parameter leaves no bracket open. -/
lemma leads_paramName (h : ∀ ks', goal (within s) ks') :
    paramName.Leads contract false spare (within s) ks goal := by
  simp only [paramName, leads_look, leads_if, leads_append]
  refine ⟨fun hthis => ?_, fun _ => ⟨fun hreceiver => ?_, fun _ => by simp [h]⟩⟩
  · obtain ⟨ks, rfl⟩ := atKind_iff.1 hthis
    simp [h]
  · obtain ⟨name, ks, rfl, hname⟩ := atName_and_thenKind_iff.1 hreceiver
    exact leads_take_plain (markIn_of_isName hname) (by simp [h])

/-- A statement leaves no bracket open. -/
lemma leads_statementBody (h : ∀ ks', goal (within s) ks') :
    (statementBody ks).Leads contract false spare (within s) ks goal := by
  unfold statementBody
  split
  case h_13 =>
    simp only [leads_if, leads_append]
    refine ⟨fun hyield => ?_, fun _ => ⟨fun hlabel => ?_, fun _ => by simp [h]⟩⟩
    · obtain ⟨ks, rfl⟩ := exists_of_atYield hyield
      simp [h]
    · obtain ⟨name, ks, rfl, hname⟩ := atLabel_iff.1 hlabel
      exact leads_take_plain (markIn_of_isName hname) (by simp [h])
  all_goals simp [h]

/-- A word in an expression that neither ends it nor opens a bracket is no bracket. -/
lemma markIn_of_endsExpr {stops : Stops} {ternaries : Nat} {k : Kind}
    (hends : endsExpr stops ternaries (k :: ks) = false) (hround : k ≠ .lParen)
    (hsquare : k ≠ .lBrack) (hcurly : k ≠ .lBrace) : k.markIn false = none := by
  cases k <;> simp_all [endsExpr]

/-- A step of an expression leaves no bracket open. -/
lemma leads_exprStep {stops : Stops} {ternaries : Nat} {previous : Option Kind}
    (hends : endsExpr stops ternaries ks = false) (h : ∀ ks', goal (within s) ks') :
    (exprStep stops previous ks).Leads contract false spare (within s) ks goal := by
  unfold exprStep
  split
  case h_13 hround _ _ hsquare hcurly _ _ _ _ _ _ =>
    refine leads_take ?_ fun _ ks' _ => h ks'
    rintro k ks rfl
    refine markIn_of_endsExpr hends ?_ ?_ ?_
    · rintro rfl
      exact hround _ rfl
    · rintro rfl
      exact hsquare _ rfl
    · rintro rfl
      exact hcurly _ rfl
  all_goals simp [h]

/-- A type declaration leaves no bracket open. -/
lemma leads_typeDeclOf {kind : NodeKind} (hkind : typeDeclKind? ks = some kind)
    (h : ∀ ks', goal (within s) ks') :
    (typeDeclOf kind).Leads contract false spare (within s) ks goal := by
  obtain ⟨ks, ⟨rfl, rfl⟩ | ⟨rfl, rfl⟩ | ⟨rfl, rfl⟩ | ⟨rfl, rfl⟩ | ⟨rfl, rfl⟩⟩ :=
    exists_of_typeDeclKind? hkind <;> simp [typeDeclOf, h]

/-- A module declaration leaves no bracket open; the round and square brackets in its body do not
count. -/
lemma leads_moduleDecl (hmodule : atModule ks = true) (h : ∀ ks', goal (within s) ks') :
    moduleDecl.Leads contract false spare (within s) ks goal := by
  have hopen : before.step (Kind.markIn true .lBrace) = some (within []) := rfl
  have hclose : (within []).step (Kind.markIn true .rBrace) = some after := rfl
  obtain ⟨ks, rfl⟩ | ⟨ks, rfl⟩ := exists_of_atModule hmodule <;>
    simp [moduleDecl, h, hopen, hclose]

/-- A module declaration is a node without braces. -/
@[simp] lemma heads_moduleDecl {sort : NodeKind → Prop} {headed : Rule → Prop} :
    moduleDecl.Heads sort headed ↔ sort .moduleDecl := Iff.rfl

/-- A modifier is no bracket. -/
lemma markIn_of_atModifier {k : Kind} (hmodifier : atModifier (k :: ks) = true) :
    k.markIn false = none := by
  unfold atModifier at hmodifier
  split at hmodifier <;> simp_all

/-- The words before a list of types are keywords. -/
lemma markIn_of_atHeritage {k : Kind} (h : atHeritage (k :: ks) = true) : k.markIn false = none := by
  simp only [atHeritage, atWord, Bool.or_eq_true, atKind_iff, List.cons.injEq] at h
  rcases h with (⟨-, rfl, -⟩ | ⟨-, rfl, -⟩) | ⟨-, rfl, -⟩ <;> rfl

/-- A label of a switch block leaves no bracket open. -/
lemma leads_switchLabel (hlabel : atSwitchLabel ks = true) (h : ∀ ks', goal (within s) ks') :
    switchLabel.Leads contract false spare (within s) ks goal := by
  obtain ⟨w, ks, rfl⟩ := exists_of_atSwitchLabel hlabel
  simp [switchLabel, h]

/-- A word of a loose place is no bracket unless it is a brace. -/
lemma markIn_true {k : Kind} (hopen : k ≠ .lBrace) (hclose : k ≠ .rBrace) : k.markIn true = none := by
  cases k <;> first | rfl | contradiction

/-- The body of a module is read up to a semicolon, and stops at no bracket but a brace. -/
lemma leads_directive :
    directive.form.Leads contract true 0 (within []) ks fun level _ => level = within [] := by
  simp only [form, leads_look]
  split
  case h_5 hopen hclose _ =>
    rw [leads_append]
    refine leads_take ?_ (by simp)
    rintro k ks rfl
    refine markIn_true ?_ ?_
    · rintro rfl
      exact hopen _ rfl
    · rintro rfl
      exact hclose _ rfl
  case h_4 => exact leads_take_plain (markIn_true (by simp) (by simp)) rfl
  all_goals trivial

/-- The machine runs through every rule. -/
theorem form_leads (rule : Rule) (ks : List Kind) (h : contract.needs rule ks) :
    rule.form.Leads contract (contract.loose rule) 0 (within []) ks
      fun level ks' => level = within [] ∧ contract.ensures rule ks' := by
  cases rule with
  | items => simp +contextual [form, leads_moduleDecl]
  | nameTail =>
    simp only [form, opt, leads_ite_atKind_and, leads_append]
    refine ⟨?_, fun _ => by simp⟩
    rintro ks rfl hname
    obtain ⟨k, ks, rfl, hk⟩ := thenName_cons.1 hname
    exact leads_take_plain rfl (leads_take_plain (markIn_of_isName hk) (by simp))
  | directive => simpa using leads_directive
  | modifierTail =>
    simp only [form, opt, leads_ite, leads_append]
    refine ⟨fun hmodifier => ⟨fun hsign => ?_, fun hsign => ?_⟩, fun _ => by simp⟩
    · simp [← atKind_iff, hsign]
    · refine leads_take ?_ (by simp)
      rintro k ks rfl
      exact markIn_of_atModifier hmodifier
  | typeDecl =>
    simp only [form, Leads]
    split
    · exact leads_typeDeclOf ‹_› (by simp)
    · trivial
  | heritage =>
    simp only [form, opt, leads_ite, leads_append]
    refine ⟨fun hheritage => ?_, fun _ => by simp⟩
    refine leads_take ?_ (by simp)
    rintro k ks rfl
    exact markIn_of_atHeritage hheritage
  | dims =>
    simp only [form, opt, leads_ite, leads_append, atDims_iff]
    refine ⟨?_, fun _ => by simp⟩
    rintro ⟨ks, rfl⟩
    simp
  | statement => simp [form, leads_statementBody]
  | exprTail stops ternaries previous =>
    cases ks with
    | nil => simp [form]
    | cons k ks =>
      simp only [form, Leads, leads_if, leads_append]
      refine ⟨by simp, fun hends => ?_⟩
      exact leads_exprStep (by simpa using hends) (by simp)
  | annotationUse | typeParams | typeArgs | creator | arrayInit | forStatement =>
    obtain ⟨ks, rfl⟩ := h
    simp [form]
  | members => exact leads_untilBrace (by simp) (by simp)
  | blockStatements => exact leads_untilBrace (by simp) (by simp)
  | switchItems =>
    refine leads_untilBrace ?_ (by simp)
    simp +contextual [leads_switchLabel]
  | elements => exact leads_untilBrace (by simp) (by simp)
  | param => simp [form, leads_paramName]
  | _ => simp [form]

/-- A type declaration has no braces of its own. -/
lemma isBraced_of_isTypeDecl {kind : NodeKind} (h : kind.isTypeDecl = true) :
    kind.isBraced = false := by
  cases kind <;> first | rfl | cases h

/-- A type declaration is a node without braces. -/
theorem form_heads (rule : Rule) (h : contract.headed rule) :
    rule.form.Heads (fun k => k.isBraced = false) contract.headed := by
  obtain rfl : rule = typeDecl := h
  exact form_typeDecl_of_closed ⟨fun _ => trivial, fun _ h => h⟩ fun kind => isBraced_of_isTypeDecl

end Rule

/-- The shape of a file is bracketed, with no more nodes with braces inside each other than
constructs may lie inside each other. -/
theorem readShape_bracketed {ks : List Kind} {shape : Shape} (h : readShape ks = .ok shape) :
    shape.Bracketed id false maxNesting := by
  obtain ⟨ks', hread⟩ := readShape_eq_ok.1 h
  obtain ⟨hrun, hlevelled, -⟩ :=
    (readRule_obeys Rule.form_leads Rule.form_heads _).levelled _ _ _ _ _ hread trivial
  exact Forest.bracketed_of_run hlevelled hrun

end JavaLint
