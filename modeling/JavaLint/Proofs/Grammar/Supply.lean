import JavaLint.Proofs.Grammar.Brackets
import JavaLint.Proofs.Grammar.Fuel
import Mathlib.Tactic.Common

/-!
# Words are there where they are taken

A form takes the next word whatever it is, and stops if there is none.  No part of the grammar of Java
files ever comes to that: wherever a word is taken, it has been looked at before, or the rule is called
only where the word is known to stand (`Rule.Needs`), or what was read before stops only in front of it
(`Rule.Ensures`).

`Form.Supplied` is the condition on a form, stated along the form and without reading, under which every
word that is taken is there.  It uses the contracts that the rules keep about brackets for the words
before which they are called and stop.  `Rule.form_supplied` goes through the rules one by one.
-/

namespace JavaLint

/-- Reading stops because a word was to be taken where none is left. -/
def Stop.IsStarved (stop : Stop) : Prop :=
  stop.cause = .expected "word"

namespace Form

variable {ρ : Type} {follow : ρ → Reader} {contract : Contract ρ}

/-- Read before the words `ks`, the form takes no word that is not there, and `goal` holds of the words
after it. -/
def Supplied (contract : Contract ρ) :
    Form ρ → (ks : List Kind) → (goal : List Kind → Prop) → Prop
  | empty, ks, goal => goal ks
  | fail what, _, _ => what ≠ "word"
  | take, ks, goal => ∃ k ks', ks = k :: ks' ∧ goal ks'
  | call rule, ks, goal => contract.needs rule ks ∧ ∀ ks', contract.ensures rule ks' → goal ks'
  | seq a b, ks, goal => a.Supplied contract ks fun ks' => b.Supplied contract ks' goal
  | node _ a, ks, goal => a.Supplied contract ks goal
  | adopt a b, ks, goal => a.Supplied contract ks fun ks' => b.Supplied contract ks' goal
  | nest a, ks, goal => a.Supplied contract ks goal
  | look choose, ks, goal => (choose ks).Supplied contract ks goal

/-- Reading succeeds before words of which `goal` holds, or stops for another reason than that no word is
left to be taken. -/
def Sated (goal : List Kind → Prop) : Except Stop (Shape × List Kind) → Prop
  | .ok (_, ks') => goal ks'
  | .error stop => ¬ stop.IsStarved

/-- Two parts that are read one after the other are sated if both are. -/
lemma sated_combine {first : Except Stop (Shape × List Kind)} {second : Reader}
    {combine : Shape → Shape → Shape} {room : Nat} {goal : List Kind → Prop} :
    Sated (fun ks' => Sated goal (second room ks')) first →
      Sated goal (match first with
        | .error stop => .error stop
        | .ok (f, ks') =>
          match second room ks' with
          | .error stop => .error stop
          | .ok (g, ks'') => .ok (combine f g, ks'')) := by
  intro h
  cases first with
  | error stop => exact h
  | ok result =>
    obtain ⟨f, ks'⟩ := result
    have hsecond : Sated goal (second room ks') := h
    dsimp only
    cases hread : second room ks' with
    | error stop => rwa [hread] at hsecond
    | ok result => rwa [hread] at hsecond

/-- What is sated with a goal is sated with every goal that follows. -/
lemma Sated.imp {goal goal' : List Kind → Prop} {result : Except Stop (Shape × List Kind)}
    (h : Sated goal result) (himp : ∀ ks', goal ks' → goal' ks') : Sated goal' result := by
  cases result with
  | error stop => exact h
  | ok result => exact himp _ h

/-- A form that is supplied is sated, if this is so for the rules where they may be called. -/
lemma read_sated
    (hfollow : ∀ rule room ks, contract.needs rule ks →
      Sated (contract.ensures rule) (follow rule room ks))
    {form : Form ρ} {room : Nat} {ks : List Kind} {goal : List Kind → Prop}
    (hform : form.Supplied contract ks goal) : Sated goal (form.read follow room ks) := by
  induction form generalizing room ks goal with
  | empty => exact hform
  | fail what =>
    intro hstarved
    exact hform (StopCause.expected.inj hstarved)
  | take =>
    obtain ⟨k, ks', rfl, hgoal⟩ := hform
    exact hgoal
  | call rule => exact (hfollow rule room ks hform.1).imp hform.2
  | seq a b iha ihb =>
    rw [read_seq]
    exact sated_combine ((iha hform).imp fun ks' hb => ihb hb)
  | node k a ih =>
    have ha : Sated goal (a.read follow room ks) := ih hform
    rw [read_node]
    cases hread : a.read follow room ks with
    | error stop => rwa [hread] at ha
    | ok result => rwa [hread] at ha
  | adopt a b iha ihb =>
    rw [read_adopt]
    exact sated_combine ((iha hform).imp fun ks' hb => ihb hb)
  | nest a ih =>
    cases room with
    | zero => simp [read, Sated, Stop.IsStarved]
    | succ room => exact ih hform
  | look choose ih => exact ih ks hform

section Simplification

variable {ks : List Kind} {goal : List Kind → Prop} {a b : Form ρ}

@[simp ↓] lemma supplied_empty : (empty : Form ρ).Supplied contract ks goal ↔ goal ks := Iff.rfl

@[simp ↓] lemma supplied_fail {what : String} :
    (fail what : Form ρ).Supplied contract ks goal ↔ what ≠ "word" := Iff.rfl

@[simp ↓] lemma supplied_take_cons {k : Kind} :
    (take : Form ρ).Supplied contract (k :: ks) goal ↔ goal ks := by
  simp [Supplied]

@[simp ↓] lemma supplied_call {rule : ρ} :
    (call rule).Supplied contract ks goal ↔
      contract.needs rule ks ∧ ∀ ks', contract.ensures rule ks' → goal ks' := Iff.rfl

@[simp ↓] lemma supplied_append :
    (a ++ b).Supplied contract ks goal ↔
      a.Supplied contract ks fun ks' => b.Supplied contract ks' goal := Iff.rfl

@[simp ↓] lemma supplied_node {k : NodeKind} :
    (node k a).Supplied contract ks goal ↔ a.Supplied contract ks goal := Iff.rfl

@[simp ↓] lemma supplied_adopt :
    (adopt a b).Supplied contract ks goal ↔
      a.Supplied contract ks fun ks' => b.Supplied contract ks' goal := Iff.rfl

@[simp ↓] lemma supplied_nest :
    (nest a).Supplied contract ks goal ↔ a.Supplied contract ks goal := Iff.rfl

@[simp ↓] lemma supplied_look {choose : List Kind → Form ρ} :
    (look choose).Supplied contract ks goal ↔ (choose ks).Supplied contract ks goal := Iff.rfl

@[simp ↓ low] lemma supplied_ite {test : List Kind → Bool} :
    (ite test a b).Supplied contract ks goal ↔
      (test ks = true → a.Supplied contract ks goal) ∧
        (test ks = false → b.Supplied contract ks goal) := by
  cases h : test ks <;> simp [ite, Supplied, h]

@[simp ↓ low] lemma supplied_if {test : Prop} [Decidable test] :
    (if test then a else b).Supplied contract ks goal ↔
      (test → a.Supplied contract ks goal) ∧ (¬ test → b.Supplied contract ks goal) := by
  by_cases h : test <;> simp [h]

end Simplification

end Form

/-- If the forms of all rules are supplied, then no rule starves where it may be called. -/
theorem readRule_sated {ρ : Type} {grammar : ρ → Form ρ} {contract : Contract ρ}
    (hsupplied : ∀ rule ks, contract.needs rule ks →
      (grammar rule).Supplied contract ks (contract.ensures rule))
    (fuel : Nat) (rule : ρ) (room : Nat) (ks : List Kind) (hneeds : contract.needs rule ks) :
    Form.Sated (contract.ensures rule) (readRule grammar fuel rule room ks) := by
  induction fuel generalizing rule room ks with
  | zero => simp [readRule, Form.Sated, Stop.IsStarved]
  | succ fuel ih => exact Form.read_sated ih (hsupplied rule ks hneeds)

/-! ## The rules for Java -/

namespace Rule

open Form Lookahead

variable {ks : List Kind} {goal : List Kind → Prop} {a b : Part}

/-- The first word passes a test, so there is one. -/
lemma exists_cons_of_head {test : Kind → Bool} (h : ks.head?.any test = true) :
    ∃ k ks', ks = k :: ks' :=
  (first_iff.1 h).imp fun _ h => h.imp fun _ h => h.1

/-- A word is there to be taken. -/
lemma supplied_take (hword : ∃ k ks', ks = k :: ks') (h : ∀ k ks', ks = k :: ks' → goal ks') :
    (take : Part).Supplied contract ks goal := by
  obtain ⟨k, ks', rfl⟩ := hword
  exact ⟨k, ks', rfl, h k ks' rfl⟩

/-- A part that is chosen by the kind of the next word knows that word. -/
@[simp ↓] lemma supplied_ite_atKind {k : Kind} :
    (ite (atKind k) a b).Supplied contract ks goal ↔
      (∀ ks', ks = k :: ks' → a.Supplied contract (k :: ks') goal) ∧
        (atKind k ks = false → b.Supplied contract ks goal) := by
  rw [supplied_ite, atKind_iff]
  refine and_congr_left fun _ => ⟨fun ha ks' hks => hks ▸ ha ⟨ks', hks⟩, ?_⟩
  rintro ha ⟨ks', rfl⟩
  exact ha ks' rfl

/-- The same where the choice is made among more than two parts. -/
@[simp ↓] lemma supplied_if_atKind {k : Kind} :
    (if atKind k ks = true then a else b).Supplied contract ks goal ↔
      (∀ ks', ks = k :: ks' → a.Supplied contract (k :: ks') goal) ∧
        (atKind k ks = false → b.Supplied contract ks goal) := by
  rw [← supplied_ite_atKind]
  rfl

/-- A part that is chosen by a keyword knows that word. -/
@[simp ↓] lemma supplied_ite_atWord {w : Keyword} :
    (ite (atWord w) a b).Supplied contract ks goal ↔
      (∀ ks', ks = .keyword w :: ks' → a.Supplied contract (.keyword w :: ks') goal) ∧
        (atWord w ks = false → b.Supplied contract ks goal) :=
  supplied_ite_atKind

/-- The same where the choice is made among more than two parts. -/
@[simp ↓] lemma supplied_if_atWord {w : Keyword} :
    (if atWord w ks = true then a else b).Supplied contract ks goal ↔
      (∀ ks', ks = .keyword w :: ks' → a.Supplied contract (.keyword w :: ks') goal) ∧
        (atWord w ks = false → b.Supplied contract ks goal) :=
  supplied_if_atKind

/-- A part that is chosen by the kind of the next word, and by what follows, knows that word. -/
@[simp ↓] lemma supplied_ite_atKind_and {k : Kind} {test : List Kind → Bool} :
    (ite (fun ks => atKind k ks && test ks) a b).Supplied contract ks goal ↔
      (∀ ks', ks = k :: ks' → test (k :: ks') = true → a.Supplied contract (k :: ks') goal) ∧
        ((atKind k ks && test ks) = false → b.Supplied contract ks goal) := by
  rw [supplied_ite, Bool.and_eq_true, atKind_iff]
  refine and_congr_left fun _ => ⟨fun ha ks' hks htest => ?_, ?_⟩
  · subst hks
    exact ha ⟨⟨ks', rfl⟩, htest⟩
  · rintro ha ⟨⟨ks', rfl⟩, htest⟩
    exact ha ks' rfl htest

/-- A part that is chosen by a name knows that there is a word. -/
@[simp ↓] lemma supplied_ite_atName :
    (ite atName a b).Supplied contract ks goal ↔
      (∀ k ks', k.isName = true → ks = k :: ks' → a.Supplied contract (k :: ks') goal) ∧
        (atName ks = false → b.Supplied contract ks goal) := by
  rw [supplied_ite, atName_iff]
  refine and_congr_left fun _ => ⟨fun ha k ks' hk hks => hks ▸ ha ⟨k, ks', hks, hk⟩, ?_⟩
  rintro ha ⟨k, ks', rfl, hk⟩
  exact ha k ks' hk rfl

/-- What stands in braces is read to the closing brace. -/
lemma supplied_untilBrace {part : Part}
    (h : ∀ k ks', ks = k :: ks' → part.Supplied contract ks goal)
    (hend : ∀ ks', goal (.rBrace :: ks')) : (untilBrace part).Supplied contract ks goal := by
  simp only [untilBrace, Supplied]
  split
  · simp
  · exact hend _
  · rename_i hne _
    cases ks with
    | nil => exact (hne rfl).elim
    | cons k ks => exact h k ks rfl

attribute [local simp] Needs Ensures opt expect_eq eat_eq expectWord expectName semicolon braces parens
  unlessAt more qualifiedName declaredName modifiers arguments parenExpr brackets formalParams
  throwsClause packageDecl importDecl enumConstant constructorDecl methodDecl fieldDecl declaredMember
  localVar resource catchClause tryStatement forHeader ruleBody lambdaParams cast creatorBody

/-- The words of a type without dimensions are there. -/
@[simp ↓] lemma supplied_typeCore (h : ∀ ks', goal ks') :
    typeCore.Supplied contract ks goal := by
  simp only [typeCore, supplied_append, supplied_call, contract_needs, contract_ensures]
  refine ⟨trivial, fun ks' _ => ?_⟩
  rw [supplied_ite]
  refine ⟨fun hprimitive => ?_, fun _ => by simp [h]⟩
  exact supplied_take (exists_cons_of_head hprimitive) fun _ ks' _ => h ks'

/-- The words of the name of a parameter are there. -/
lemma supplied_paramName (h : ∀ ks', goal ks') : paramName.Supplied contract ks goal := by
  simp only [paramName, supplied_look, supplied_if]
  refine ⟨fun hthis => ?_, fun _ => ⟨fun hreceiver => ?_, fun _ => by simp [h]⟩⟩
  · obtain ⟨ks, rfl⟩ := atKind_iff.1 hthis
    simp [h]
  · obtain ⟨name, ks, rfl, -⟩ := atName_and_thenKind_iff.1 hreceiver
    simp [h]

/-- The words of a statement are there. -/
lemma supplied_statementBody (h : ∀ ks', goal ks') :
    (statementBody ks).Supplied contract ks goal := by
  unfold statementBody
  split
  case h_13 =>
    simp only [supplied_if]
    refine ⟨fun hyield => ?_, fun _ => ⟨fun hlabel => ?_, fun _ => by simp [h]⟩⟩
    · obtain ⟨ks, rfl⟩ := exists_of_atYield hyield
      simp [h]
    · obtain ⟨name, ks, rfl, -⟩ := atLabel_iff.1 hlabel
      simp [h]
  all_goals simp [h]

/-- The words of a step of an expression are there. -/
lemma supplied_exprStep {stops : Stops} {previous : Option Kind} {k : Kind} (h : ∀ ks', goal ks') :
    (exprStep stops previous (k :: ks)).Supplied contract (k :: ks) goal := by
  unfold exprStep
  split <;> simp_all

/-- The words of a type declaration are there. -/
lemma supplied_typeDeclOf {kind : NodeKind} (hkind : typeDeclKind? ks = some kind)
    (h : ∀ ks', goal ks') : (typeDeclOf kind).Supplied contract ks goal := by
  obtain ⟨ks, ⟨rfl, rfl⟩ | ⟨rfl, rfl⟩ | ⟨rfl, rfl⟩ | ⟨rfl, rfl⟩ | ⟨rfl, rfl⟩⟩ :=
    exists_of_typeDeclKind? hkind <;> simp [typeDeclOf, h]

/-- The words of a module declaration are there. -/
lemma supplied_moduleDecl (hmodule : atModule ks = true) (h : ∀ ks', goal ks') :
    moduleDecl.Supplied contract ks goal := by
  obtain ⟨ks, rfl⟩ | ⟨ks, rfl⟩ := exists_of_atModule hmodule <;> simp [moduleDecl, h]

/-- The words of a label of a switch block are there. -/
lemma supplied_switchLabel (hlabel : atSwitchLabel ks = true) (h : ∀ ks', goal ks') :
    switchLabel.Supplied contract ks goal := by
  obtain ⟨w, ks, rfl⟩ := exists_of_atSwitchLabel hlabel
  simp [switchLabel, h]

/-- In all rules the words that are taken are there. -/
theorem form_supplied (rule : Rule) (ks : List Kind) (h : contract.needs rule ks) :
    rule.form.Supplied contract ks fun ks' => contract.ensures rule ks' := by
  cases rule with
  | items => simp +contextual [form, supplied_moduleDecl]
  | nameTail =>
    simp only [form, opt, supplied_ite_atKind_and, supplied_append, supplied_take_cons]
    refine ⟨?_, fun _ => trivial⟩
    rintro ks rfl hname
    obtain ⟨k, ks, rfl, -⟩ := thenName_cons.1 hname
    simp
  | directive =>
    simp only [form, supplied_look]
    split
    case h_5 hne _ _ _ =>
      cases ks with
      | nil => exact (hne rfl).elim
      | cons k ks => simp
    all_goals simp
  | modifierTail =>
    simp only [form, opt, supplied_ite, supplied_append]
    refine ⟨fun hmodifier => ⟨fun hsign => ?_, fun _ => ?_⟩, fun _ => trivial⟩
    · simp [← atKind_iff, hsign]
    · refine supplied_take ?_ (by simp)
      cases ks with
      | nil => simp [atModifier] at hmodifier
      | cons k ks => exact ⟨k, ks, rfl⟩
  | typeDecl =>
    simp only [form, supplied_look]
    split
    · exact supplied_typeDeclOf ‹_› (by simp)
    · simp
  | heritage =>
    simp only [form, opt, supplied_ite, supplied_append]
    refine ⟨fun hheritage => supplied_take ?_ (by simp), fun _ => trivial⟩
    cases ks with
    | nil => simp [atHeritage, atWord, atKind] at hheritage
    | cons k ks => exact ⟨k, ks, rfl⟩
  | dims =>
    simp only [form, opt, supplied_ite, supplied_append, atDims_iff]
    refine ⟨?_, fun _ => trivial⟩
    rintro ⟨ks, rfl⟩
    simp
  | typeArgList =>
    simp only [form, opt, more, supplied_append, supplied_call, supplied_ite_atKind]
    refine ⟨trivial, fun ks _ => ⟨fun ks' hquestion => ?_, fun _ => by simp⟩⟩
    rw [supplied_take_cons, supplied_ite, Bool.or_eq_true]
    refine ⟨?_, fun _ => by simp⟩
    rintro (hword | hword)
    · obtain ⟨ks, rfl⟩ := atKind_iff.1 hword
      simp
    · obtain ⟨ks, rfl⟩ := atKind_iff.1 hword
      simp
  | statement => simp [form, supplied_statementBody]
  | param => simp [form, supplied_paramName]
  | exprTail stops ternaries previous =>
    cases ks with
    | nil => simp [form]
    | cons k ks => simp [form, supplied_exprStep]
  | annotationUse | typeParams | typeArgs | creator | arrayInit | forStatement =>
    obtain ⟨ks, rfl⟩ := h
    simp [form]
  | members | blockStatements | elements => exact supplied_untilBrace (by simp) (by simp)
  | switchItems =>
    refine supplied_untilBrace ?_ (by simp)
    simp +contextual [supplied_switchLabel]
  | _ => simp [form]

end Rule

end JavaLint
