import JavaLint.Proofs.Grammar.Brackets
import Mathlib.Data.List.Chain
import Mathlib.Tactic.Common

/-!
# Angle brackets and comparisons

The signs `<` and `>` enclose types if they stand directly in a list of types, and are loose everywhere
else: then they compare or shift.  A loose sign is never followed directly by one that encloses types.
Types start after a name, a point or a keyword, and end with one of their own words, and an expression
stops only before words that are no such signs.

`Form.Passes` is a condition on a form, stated along the form and without reading, under which this holds
of what the form reads.  It only has to know whether the last word was a loose sign: if not, the place is
calm.  A rule that is called is known by its contract alone.  `readShape_calm` is the result for files.
-/

namespace JavaLint

/-- Signs that stand directly in the node enclose types. -/
def NodeKind.isAngled : NodeKind → Bool
  | typeArgs | typeParams | typeParam => true
  | _ => false

/-- One of the signs that enclose types or compare. -/
def Kind.isAngle : Kind → Bool
  | lt | gt => true
  | _ => false

/-- There are two such signs. -/
lemma Kind.isAngle_iff {k : Kind} : k.isAngle = true ↔ k = .lt ∨ k = .gt := by
  cases k <;> simp [isAngle]

/-- The leaves of a forest in document order, each with whether signs enclose types where it stands. -/
def Forest.seats {α : Type} (angled : Bool) : Forest α → List (Bool × α)
  | nil => []
  | leaf a rest => (angled, a) :: rest.seats angled
  | node k inside rest => inside.seats k.isAngled ++ rest.seats angled

/-- The seats of two sequences of trees. -/
@[simp] lemma Forest.seats_append {α : Type} (angled : Bool) (f g : Forest α) :
    (f ++ g).seats angled = f.seats angled ++ g.seats angled := by
  induction f with
  | nil => rfl
  | leaf a rest ih => simp [seats, ih]
  | node k inside rest _ ih => simp [seats, ih]

/-- A word with whether signs enclose types where it stands. -/
abbrev Seat := Bool × Kind

namespace Seat

/-- The word is a sign that encloses no types. -/
def isLoose (s : Seat) : Bool :=
  s.2.isAngle && !s.1

/-- The word is a sign that encloses types. -/
def isBracket (s : Seat) : Bool :=
  s.2.isAngle && s.1

/-- No sign that encloses types comes directly after a loose one. -/
def Calm (seats : List Seat) : Prop :=
  seats.IsChain fun s s' => s.isLoose = true → s'.isBracket = false

/-- The last word is no loose sign. -/
def endCalm (seats : List Seat) : Bool :=
  seats.getLast?.all fun s => !s.isLoose

/-- One more word. -/
@[simp] lemma endCalm_append_singleton (seats : List Seat) (angled : Bool) (k : Kind) :
    endCalm (seats ++ [(angled, k)]) = (angled || !k.isAngle) := by
  cases angled <;> simp [endCalm, isLoose]

/-- A word can be added if it is no sign that encloses types, or if the place is calm. -/
lemma Calm.append_singleton {seats : List Seat} (h : Calm seats) {angled : Bool} {k : Kind}
    (hk : angled = true → k.isAngle = true → endCalm seats = true) :
    Calm (seats ++ [(angled, k)]) := by
  refine List.isChain_append.2 ⟨h, .singleton _, ?_⟩
  intro s hs s' hs' hloose
  obtain rfl : (angled, k) = s' := by simpa using hs'
  by_contra hbracket
  have hcalm : endCalm seats = true := by
    simp only [isBracket, Bool.not_eq_false, Bool.and_eq_true] at hbracket
    exact hk hbracket.2 hbracket.1
  rw [endCalm, Option.mem_def.1 hs] at hcalm
  simp [hloose] at hcalm

end Seat

open Seat

/-! ## Contracts -/

/-- What is known of the rules of a grammar. -/
structure CalmContract (ρ : Type) where
  /-- The rule may be called where signs enclose types or not, at a place that is calm or not, before
  these words. -/
  needs : ρ → (angled calm : Bool) → List Kind → Prop
  /-- From a place that is calm or not the rule leads to one that is calm or not, before these words. -/
  ensures : ρ → (calm calm' : Bool) → List Kind → Prop
  /-- The rule starts with a node in which signs do not enclose types. -/
  headed : ρ → Prop

namespace Form

variable {ρ : Type} {follow : ρ → Reader}

/-- Read before the words `ks`, the form puts no sign that encloses types after a loose one, and `goal`
holds of the place after it and of the words to come. -/
def Passes (contract : CalmContract ρ) :
    Form ρ → (angled calm : Bool) → (ks : List Kind) → (goal : Bool → List Kind → Prop) → Prop
  | empty, _, calm, ks, goal => goal calm ks
  | fail _, _, _, _, _ => True
  | take, angled, calm, ks, goal =>
    ∀ k ks', ks = k :: ks' → (angled = true → k.isAngle = true → calm = true) ∧
      goal (angled || !k.isAngle) ks'
  | call rule, angled, calm, ks, goal =>
    contract.needs rule angled calm ks ∧
      ∀ calm' ks', contract.ensures rule calm calm' ks' → goal calm' ks'
  | seq a b, angled, calm, ks, goal =>
    a.Passes contract angled calm ks fun calm' ks' => b.Passes contract angled calm' ks' goal
  | node k a, _, calm, ks, goal => a.Passes contract k.isAngled calm ks goal
  | adopt a b, angled, calm, ks, goal =>
    b.Heads (fun k => k.isAngled = false) contract.headed ∧
      a.Passes contract false calm ks fun calm' ks' => b.Passes contract angled calm' ks' goal
  | nest a, angled, calm, ks, goal => a.Passes contract angled calm ks goal
  | look choose, angled, calm, ks, goal => (choose ks).Passes contract angled calm ks goal

/-- Following the rules keeps their contracts, whatever has been read before. -/
structure Calms (contract : CalmContract ρ) (follow : ρ → Reader) : Prop where
  /-- Where a rule may be called, what it reads can be added to what has been read. -/
  calm : ∀ rule room ks f ks', follow rule room ks = .ok (f, ks') → ∀ angled before, Calm before →
    contract.needs rule angled (endCalm before) ks →
    Calm (before ++ f.seats angled) ∧
      contract.ensures rule (endCalm before) (endCalm (before ++ f.seats angled)) ks'
  /-- A rule that is said to start with a node in which signs do not enclose types does. -/
  headed : ∀ rule room ks f ks', follow rule room ks = .ok (f, ks') → contract.headed rule →
    f.HeadedBy fun k => k.isAngled = false

variable {contract : CalmContract ρ}

/-- If a form passes, then what it reads can be added to what has been read before. -/
lemma read_passes (hfollow : Calms contract follow) {form : Form ρ} {angled : Bool}
    {before : List Seat} (hbefore : Calm before) {goal : Bool → List Kind → Prop} {room : Nat}
    {ks ks' : List Kind} {f : Shape} (hform : form.Passes contract angled (endCalm before) ks goal)
    (hread : form.read follow room ks = .ok (f, ks')) :
    Calm (before ++ f.seats angled) ∧ goal (endCalm (before ++ f.seats angled)) ks' := by
  induction form generalizing angled before goal room ks ks' f with
  | empty =>
    obtain ⟨rfl, rfl⟩ : Forest.nil = f ∧ ks = ks' := by simpa [read] using hread
    simpa [Forest.seats] using ⟨hbefore, hform⟩
  | fail what => simp [read] at hread
  | take =>
    obtain ⟨k, rfl, rfl⟩ := read_take_eq_ok.1 hread
    obtain ⟨hk, hgoal⟩ := hform k ks' rfl
    exact ⟨hbefore.append_singleton hk, by simpa [Forest.seats] using hgoal⟩
  | call rule =>
    rw [read] at hread
    obtain ⟨hneeds, hgoal⟩ := hform
    obtain ⟨hcalm, hensures⟩ := hfollow.calm rule room ks f ks' hread angled before hbefore hneeds
    exact ⟨hcalm, hgoal _ _ hensures⟩
  | seq a b iha ihb =>
    obtain ⟨g, ks₁, h, ha, hb, rfl⟩ := read_seq_eq_ok.1 hread
    obtain ⟨hcalm₁, hmiddle⟩ := iha hbefore hform ha
    rw [Forest.seats_append, ← List.append_assoc]
    exact ihb hcalm₁ hmiddle hb
  | node k a ih =>
    obtain ⟨g, ha, rfl⟩ := read_node_eq_ok.1 hread
    simpa [Forest.seats] using ih hbefore hform ha
  | adopt a b iha ihb =>
    obtain ⟨g, ks₁, h, ha, hb, rfl⟩ := read_adopt_eq_ok.1 hread
    obtain ⟨hheads, hfirst⟩ := hform
    obtain ⟨hcalm₁, hsecond⟩ := iha hbefore hfirst ha
    have hall := ihb hcalm₁ hsecond hb
    have hhead := read_headedBy hfollow.headed hheads hb
    -- What is adopted moves into a node that does not enclose types, and so keeps its seats.
    cases h with
    | nil => exact hhead.elim
    | leaf k rest => exact hhead.elim
    | node k inside rest =>
      have hk : k.isAngled = false := hhead
      simpa [Forest.adopt, Forest.seats, hk] using hall
  | nest a ih =>
    obtain ⟨room', rfl, ha⟩ := read_nest_eq_ok.1 hread
    exact ih hbefore hform ha
  | look choose ih =>
    rw [read] at hread
    exact ih ks hbefore hform hread

section Simplification

variable {angled calm : Bool} {ks : List Kind} {goal : Bool → List Kind → Prop} {a b : Form ρ}

/-- The goal after a form waits until the form is done. -/
@[congr] lemma passes_congr {a' : Form ρ} (h : a = a') :
    a.Passes contract angled calm ks goal ↔ a'.Passes contract angled calm ks goal := by
  rw [h]

@[simp ↓] lemma passes_empty :
    (empty : Form ρ).Passes contract angled calm ks goal ↔ goal calm ks := Iff.rfl

@[simp ↓] lemma passes_fail {what : String} :
    (fail what : Form ρ).Passes contract angled calm ks goal := trivial

@[simp ↓] lemma passes_take_cons {k : Kind} :
    (take : Form ρ).Passes contract angled calm (k :: ks) goal ↔
      (angled = true → k.isAngle = true → calm = true) ∧ goal (angled || !k.isAngle) ks := by
  simp [Passes]

@[simp ↓ low] lemma passes_take :
    (take : Form ρ).Passes contract angled calm ks goal ↔
      ∀ k ks', ks = k :: ks' → (angled = true → k.isAngle = true → calm = true) ∧
        goal (angled || !k.isAngle) ks' := Iff.rfl

@[simp ↓] lemma passes_call {rule : ρ} :
    (call rule).Passes contract angled calm ks goal ↔
      contract.needs rule angled calm ks ∧
        ∀ calm' ks', contract.ensures rule calm calm' ks' → goal calm' ks' := Iff.rfl

@[simp ↓] lemma passes_append :
    (a ++ b).Passes contract angled calm ks goal ↔
      a.Passes contract angled calm ks fun calm' ks' => b.Passes contract angled calm' ks' goal :=
  Iff.rfl

@[simp ↓] lemma passes_node {k : NodeKind} :
    (node k a).Passes contract angled calm ks goal ↔ a.Passes contract k.isAngled calm ks goal :=
  Iff.rfl

@[simp ↓] lemma passes_adopt :
    (adopt a b).Passes contract angled calm ks goal ↔
      b.Heads (fun k => k.isAngled = false) contract.headed ∧
        a.Passes contract false calm ks fun calm' ks' => b.Passes contract angled calm' ks' goal :=
  Iff.rfl

@[simp ↓] lemma passes_nest :
    (nest a).Passes contract angled calm ks goal ↔ a.Passes contract angled calm ks goal := Iff.rfl

@[simp ↓] lemma passes_look {choose : List Kind → Form ρ} :
    (look choose).Passes contract angled calm ks goal ↔
      (choose ks).Passes contract angled calm ks goal := Iff.rfl

@[simp ↓ low] lemma passes_ite {test : List Kind → Bool} :
    (ite test a b).Passes contract angled calm ks goal ↔
      (test ks = true → a.Passes contract angled calm ks goal) ∧
        (test ks = false → b.Passes contract angled calm ks goal) := by
  cases h : test ks <;> simp [ite, Passes, h]

@[simp ↓ low] lemma passes_if {test : Prop} [Decidable test] :
    (if test then a else b).Passes contract angled calm ks goal ↔
      (test → a.Passes contract angled calm ks goal) ∧
        (¬ test → b.Passes contract angled calm ks goal) := by
  by_cases h : test <;> simp [h]

end Simplification

end Form

/-- If the forms of all rules keep their contracts, then so does following the rules. -/
theorem readRule_calms {ρ : Type} {grammar : ρ → Form ρ} {contract : CalmContract ρ}
    (hpasses : ∀ rule angled calm ks, contract.needs rule angled calm ks →
      (grammar rule).Passes contract angled calm ks (contract.ensures rule calm))
    (hheads : ∀ rule, contract.headed rule →
      (grammar rule).Heads (fun k => k.isAngled = false) contract.headed)
    (fuel : Nat) : Form.Calms contract (readRule grammar fuel) := by
  refine ⟨?_, readRule_headedBy hheads fuel⟩
  induction fuel with
  | zero =>
    intro rule room ks f ks' hread
    simp [readRule] at hread
  | succ fuel ih =>
    intro rule room ks f ks' hread angled before hbefore hneeds
    exact Form.read_passes ⟨ih, readRule_headedBy hheads fuel⟩ hbefore
      (hpasses rule angled _ ks hneeds) hread

/-! ## The rules for Java -/

namespace Rule

open Form Lookahead

/-- Where a rule may be called.  Lists of types and what comes before them are read at calm places, and
most rules only where signs do not enclose types. -/
def NeedsCalm (rule : Rule) (angled calm : Bool) (ks : List Kind) : Prop :=
  match rule with
  | annotations | annotationUse | type => True
  | typeArgs | typeArgList | typeParams | typeParamList | bounds => calm = true
  | typeTail | nameTail | dims | enumConstants | members | member => angled = false ∧ calm = true
  | creator => angled = false ∧ ∃ ks', ks = .keyword .newKw :: ks'
  | _ => angled = false

/-- Where a rule leads.  Types, names and bodies end at calm places, as do members; the insides of bodies
stop before a closing brace. -/
def EnsuresCalm (rule : Rule) (calm calm' : Bool) (ks : List Kind) : Prop :=
  match rule with
  | annotationUse | type | typeTail | typeArgs | typeArgList | typeParams | typeParamList | bounds
  | nameTail | dims | typeDecl | classBody | enumBody | enumConstants | member | block => calm' = true
  | annotations | modifierTail => calm = true → calm' = true
  | directives | members | blockStatements | switchItems => ∃ ks', ks = .rBrace :: ks'
  | _ => True

/-- What the rules of the grammar promise about angle brackets. -/
def calmContract : CalmContract Rule where
  needs := NeedsCalm
  ensures := EnsuresCalm
  headed rule := rule = typeDecl

@[simp] lemma calmContract_needs : calmContract.needs = NeedsCalm := rfl

@[simp] lemma calmContract_ensures : calmContract.ensures = EnsuresCalm := rfl

@[simp] lemma calmContract_headed (rule : Rule) : calmContract.headed rule ↔ rule = typeDecl := Iff.rfl

variable {angled calm : Bool} {ks : List Kind} {goal : Bool → List Kind → Prop} {a b : Part}

/-- Most words are no angle brackets. -/
@[simp] lemma isAngle_eq_false {k : Kind} (hlt : k ≠ .lt) (hgt : k ≠ .gt) : k.isAngle = false := by
  cases k <;> simp_all [Kind.isAngle]

/-- A name is no angle bracket. -/
lemma isAngle_of_isName {k : Kind} (h : k.isName = true) : k.isAngle = false := by
  cases k <;> simp_all [Kind.isName, Kind.isAngle]

/-- A part that is chosen by the kind of the next word knows that word. -/
@[simp ↓] lemma passes_ite_atKind {k : Kind} :
    (ite (atKind k) a b).Passes calmContract angled calm ks goal ↔
      (∀ ks', ks = k :: ks' → a.Passes calmContract angled calm (k :: ks') goal) ∧
        (atKind k ks = false → b.Passes calmContract angled calm ks goal) := by
  rw [passes_ite, atKind_iff]
  refine and_congr_left fun _ => ⟨fun ha ks' hks => hks ▸ ha ⟨ks', hks⟩, ?_⟩
  rintro ha ⟨ks', rfl⟩
  exact ha ks' rfl

/-- A part that is chosen by a name knows that the next word is one. -/
lemma passes_ite_atName :
    (ite atName a b).Passes calmContract angled calm ks goal ↔
      (∀ k ks', k.isName = true → ks = k :: ks' →
        a.Passes calmContract angled calm (k :: ks') goal) ∧
      (atName ks = false → b.Passes calmContract angled calm ks goal) := by
  rw [passes_ite, atName_iff]
  refine and_congr_left fun _ => ⟨fun ha k ks' hk hks => hks ▸ ha ⟨k, ks', hks, hk⟩, ?_⟩
  rintro ha ⟨k, ks', rfl, hk⟩
  exact ha k ks' hk rfl

/-- After a name the place is calm. -/
@[simp ↓] lemma passes_expectName {what : String} :
    (expectName what).Passes calmContract false calm ks goal ↔
      ∀ k ks', k.isName = true → ks = k :: ks' → goal true ks' := by
  rw [expectName, passes_ite_atName]
  simp +contextual [isAngle_of_isName]

/-- After a declared name the place is calm. -/
@[simp ↓] lemma passes_declaredName {what : String} :
    (declaredName what).Passes calmContract angled calm ks goal ↔
      ∀ k ks', k.isName = true → ks = k :: ks' → goal true ks' := by
  rw [declaredName, passes_ite_atName]
  simp +contextual [isAngle_of_isName, NodeKind.isAngled]

/-- What stands in braces is read to the closing brace. -/
lemma passes_untilBrace {part : Part}
    (h : ∀ k ks', ks = k :: ks' → part.Passes calmContract angled calm ks goal)
    (hend : ∀ ks', goal calm (.rBrace :: ks')) :
    (untilBrace part).Passes calmContract angled calm ks goal := by
  simp only [untilBrace, Passes]
  split
  · trivial
  · exact hend _
  · rename_i hne _
    cases ks with
    | nil => exact (hne rfl).elim
    | cons k ks => exact h k ks rfl

attribute [local simp] Heads NeedsCalm EnsuresCalm NodeKind.isAngled opt expect_eq eat_eq
  expectWord semicolon braces parens unlessAt more qualifiedName modifiers arguments parenExpr brackets
  formalParams throwsClause packageDecl importDecl enumConstant constructorDecl methodDecl fieldDecl
  declaredMember localVar resource catchClause tryStatement forHeader ruleBody lambdaParams cast
  creatorBody

/-- A type without dimensions ends with one of its own words. -/
@[simp ↓] lemma passes_typeCore (h : ∀ ks', goal true ks') :
    typeCore.Passes calmContract false calm ks goal := by
  have hprimitive : ∀ k : Kind, (k.isPrimitive || k = .keyword .voidKw) = true →
      k.isAngle = false := by
    intro k hk
    cases k <;> simp_all [Kind.isPrimitive]
  simp only [typeCore, passes_append, passes_call]
  refine ⟨trivial, fun calm' ks' _ => ?_⟩
  simp only [passes_ite, passes_append, first_iff, atName_iff]
  refine ⟨?_, fun _ => ⟨?_, fun _ => trivial⟩⟩
  · rintro ⟨k, ks, rfl, hk⟩
    simp [hprimitive k hk, h]
  · rintro ⟨k, ks, rfl, hk⟩
    simp [isAngle_of_isName hk, h]

/-- A type declaration ends with the closing brace of its body. -/
lemma passes_typeDeclOf {kind : NodeKind} (hkind : kind.isTypeDecl = true) (h : ∀ ks', goal true ks') :
    (typeDeclOf kind).Passes calmContract false calm ks goal := by
  cases kind with
  | classDecl | interfaceDecl | enumDecl | recordDecl | annotationTypeDecl => simp [typeDeclOf, h]
  | _ => cases hkind

/-- A statement may end with any word. -/
lemma passes_statementBody (h : ∀ calm' ks', goal calm' ks') :
    (statementBody ks).Passes calmContract false calm ks goal := by
  unfold statementBody
  split <;> simp [h]

/-- A step of an expression may end with any word. -/
lemma passes_exprStep {stops : Stops} {previous : Option Kind} (h : ∀ calm' ks', goal calm' ks') :
    (exprStep stops previous ks).Passes calmContract false calm ks goal := by
  unfold exprStep
  split <;> simp [h]

/-- A label of a switch block may end with any word. -/
lemma passes_switchLabel (h : ∀ calm' ks', goal calm' ks') :
    switchLabel.Passes calmContract false calm ks goal := by
  simp [switchLabel, h]

/-- A modifier is no angle bracket. -/
lemma isAngle_of_atModifier {k : Kind} (h : atModifier (k :: ks) = true) : k.isAngle = false := by
  unfold atModifier at h
  split at h <;> simp_all

/-- The forms of all rules keep their contracts. -/
theorem form_passes (rule : Rule) (angled calm : Bool) (ks : List Kind)
    (h : calmContract.needs rule angled calm ks) :
    rule.form.Passes calmContract angled calm ks (calmContract.ensures rule calm) := by
  cases rule with
  | annotations | annotationUse | type => simp [form]
  | typeArgs | typeArgList | typeParams | typeParamList | bounds =>
    obtain rfl : calm = true := h
    simp [form]
  | typeTail | enumConstants =>
    obtain ⟨rfl, rfl⟩ := h
    simp [form]
  | nameTail =>
    obtain ⟨rfl, rfl⟩ := h
    simp only [form, opt, passes_ite, Bool.and_eq_true]
    refine ⟨?_, fun _ => by simp⟩
    rintro ⟨hdot, hname⟩
    obtain ⟨ks, rfl⟩ := atKind_iff.1 hdot
    obtain ⟨k, ks, rfl, hk⟩ := thenName_cons.1 hname
    simp [isAngle_of_isName hk]
  | dims =>
    obtain ⟨rfl, rfl⟩ := h
    simp only [form, opt, passes_ite, atDims_iff]
    refine ⟨?_, fun _ => by simp⟩
    rintro ⟨ks, rfl⟩
    simp
  | member =>
    obtain ⟨rfl, rfl⟩ := h
    simp only [form, passes_look, passes_if]
    refine ⟨fun hsemi => ?_, by simp⟩
    obtain ⟨ks, rfl⟩ := atKind_iff.1 hsemi
    simp
  | members =>
    obtain ⟨rfl, rfl⟩ := h
    exact passes_untilBrace (by simp) (by simp)
  | creator =>
    obtain ⟨rfl, ks, rfl⟩ := h
    simp [form]
  | items =>
    obtain rfl : angled = false := h
    simp [form, moduleDecl]
  | modifierTail =>
    obtain rfl : angled = false := h
    simp only [form, opt, passes_ite, passes_append]
    refine ⟨fun hmodifier => ⟨fun _ => by simp, fun _ => ?_⟩, by simp⟩
    rintro k ks rfl
    simp [isAngle_of_atModifier hmodifier]
  | typeDecl =>
    obtain rfl : angled = false := h
    simp only [form, passes_look]
    split
    · exact passes_typeDeclOf (isTypeDecl_of_typeDeclKind? ‹_›) (by simp)
    · trivial
  | directive =>
    obtain rfl : angled = false := h
    simp only [form, passes_look]
    split <;> simp
  | param =>
    obtain rfl : angled = false := h
    simp [form, paramName]
  | blockStatements | elements =>
    obtain rfl : angled = false := h
    exact passes_untilBrace (by simp) (by simp)
  | switchItems =>
    obtain rfl : angled = false := h
    exact passes_untilBrace (by simp [passes_switchLabel]) (by simp)
  | statement =>
    obtain rfl : angled = false := h
    simpa [form] using fun _ _ => passes_statementBody (by simp)
  | exprTail stops ternaries previous =>
    obtain rfl : angled = false := h
    simp only [form, passes_look]
    split
    · simp
    · simp [passes_exprStep]
  | _ =>
    obtain rfl : angled = false := h
    simp [form]

/-- A type declaration is a node in which signs do not enclose types. -/
theorem form_headed (rule : Rule) (h : calmContract.headed rule) :
    rule.form.Heads (fun k => k.isAngled = false) calmContract.headed := by
  obtain rfl : rule = typeDecl := h
  refine form_typeDecl_of_closed ⟨fun _ => trivial, fun _ h => h⟩ fun kind htype => ?_
  cases kind <;> first | rfl | cases htype

end Rule

/-- In the shape of a file no sign that encloses types comes directly after a loose one. -/
theorem readShape_calm {ks : List Kind} {shape : Shape} (h : readShape ks = .ok shape) :
    Calm (shape.seats false) := by
  obtain ⟨ks', hread⟩ := readShape_eq_ok.1 h
  exact ((readRule_calms Rule.form_passes Rule.form_headed _).calm _ _ _ _ _ hread false [] .nil
    rfl).1

end JavaLint
