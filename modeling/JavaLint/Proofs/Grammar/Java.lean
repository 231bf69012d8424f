import JavaLint.Proofs.Grammar.Progress
import JavaLint.Tree.Parse
import Mathlib.Tactic.Common

/-!
# Progress of the grammar of Java files

The conditions of `Progress` hold of every rule: `form_movesAt`, `form_callsBelow` and
`form_nodesMoveAt` go through the rules one by one, with one lemma for each part that is chosen by
the words to come.  Everything else follows from the theory of forms.

`readShape` therefore always finishes, loses no word, reads the file to its end and makes no empty
node.
-/

namespace JavaLint

/-- A part that fails has the property, and a choice has it if all that may be chosen has it. -/
structure Form.ClosedUnderChoice {ρ : Type} (P : Form ρ → Prop) : Prop where
  fail : ∀ what, P (.fail what)
  look : ∀ choose, (∀ ks, P (choose ks)) → P (.look choose)

namespace Rule

open Form Lookahead

/-! ## Looking at the next words

What the words to come are, if a test of them succeeds. -/

section Words

variable {ks : List Kind}

/-- The first word is of the given kind. -/
lemma atKind_iff {k : Kind} : atKind k ks = true ↔ ∃ ks', ks = k :: ks' := by
  cases ks <;> simp [atKind, eq_comm]

/-- The first word passes the test. -/
lemma first_iff {test : Kind → Bool} :
    Lookahead.first test ks = true ↔ ∃ k ks', ks = k :: ks' ∧ test k = true := by
  cases ks with
  | nil => simp [Lookahead.first]
  | cons k ks => simp [Lookahead.first]

/-- The first word can be used as a name. -/
lemma atName_iff : atName ks = true ↔ ∃ k ks', ks = k :: ks' ∧ k.isName = true :=
  first_iff

/-- The word after the first one can be used as a name. -/
lemma thenName_cons {first : Kind} :
    thenName (first :: ks) = true ↔ ∃ k ks', ks = k :: ks' ∧ k.isName = true :=
  atName_iff

/-- A name comes first, and a word of the given kind after it. -/
lemma atName_and_thenKind_iff {k : Kind} : (atName ks && thenKind k ks) = true ↔
    ∃ name ks', ks = name :: k :: ks' ∧ name.isName = true := by
  rw [Bool.and_eq_true]
  constructor
  · rintro ⟨hname, hthen⟩
    obtain ⟨name, ks, rfl, hk⟩ := atName_iff.1 hname
    obtain ⟨ks, rfl⟩ : ∃ ks', ks = k :: ks' := atKind_iff.1 hthen
    exact ⟨name, ks, rfl, hk⟩
  · rintro ⟨name, ks, rfl, hk⟩
    exact ⟨atName_iff.2 ⟨name, _, rfl, hk⟩, by simp [thenKind]⟩

/-- An empty pair of brackets. -/
lemma atDims_iff : atDims ks = true ↔ ∃ ks', ks = .lBrack :: .rBrack :: ks' := by
  unfold atDims
  rw [Bool.and_eq_true]
  constructor
  · rintro ⟨hopen, hclose⟩
    obtain ⟨ks, rfl⟩ := atKind_iff.1 hopen
    obtain ⟨ks, rfl⟩ : ∃ ks', ks = .rBrack :: ks' := atKind_iff.1 hclose
    exact ⟨ks, rfl⟩
  · rintro ⟨ks, rfl⟩
    simp [atKind, thenKind]

/-- A label is a name before a colon. -/
lemma atLabel_iff :
    atLabel ks = true ↔ ∃ name ks', ks = name :: .colon :: ks' ∧ name.isName = true :=
  atName_and_thenKind_iff

/-- A statement that yields a value starts with the keyword. -/
lemma exists_of_atYield (h : atYield ks = true) : ∃ ks', ks = .keyword .yieldKw :: ks' :=
  atKind_iff.1 (Bool.and_eq_true_iff.1 h).1

/-- A label of a switch block starts with a keyword. -/
lemma exists_of_atSwitchLabel (h : atSwitchLabel ks = true) : ∃ w ks', ks = .keyword w :: ks' := by
  rcases Bool.or_eq_true_iff.1 h with hcase | hdefault
  · exact ⟨.caseKw, atKind_iff.1 hcase⟩
  · exact ⟨.defaultKw, atKind_iff.1 (Bool.and_eq_true_iff.1 hdefault).1⟩

/-- A module declaration starts with one keyword or with two. -/
lemma exists_of_atModule (h : atModule ks = true) :
    (∃ ks', ks = .keyword .openKw :: .keyword .moduleKw :: ks') ∨
      ∃ ks', ks = .keyword .moduleKw :: ks' := by
  rcases Bool.or_eq_true_iff.1 h with h | h
  · obtain ⟨hopenKw, hmoduleKw⟩ := Bool.and_eq_true_iff.1 h
    obtain ⟨ks, rfl⟩ := atKind_iff.1 hopenKw
    obtain ⟨ks, rfl⟩ : ∃ ks', ks = .keyword .moduleKw :: ks' := atKind_iff.1 hmoduleKw
    exact .inl ⟨ks, rfl⟩
  · exact .inr (atKind_iff.1 (Bool.and_eq_true_iff.1 h).1)

/-- The words with which the type declarations of each kind start. -/
lemma exists_of_typeDeclKind? {kind : NodeKind} (h : typeDeclKind? ks = some kind) :
    ∃ ks', kind = .classDecl ∧ ks = .keyword .classKw :: ks' ∨
      kind = .interfaceDecl ∧ ks = .keyword .interfaceKw :: ks' ∨
      kind = .enumDecl ∧ ks = .keyword .enumKw :: ks' ∨
      kind = .recordDecl ∧ ks = .keyword .recordKw :: ks' ∨
      kind = .annotationTypeDecl ∧ ks = .atSign :: .keyword .interfaceKw :: ks' := by
  unfold typeDeclKind? at h
  split at h
  case h_1 ks | h_2 ks | h_3 ks =>
    cases h
    exact ⟨ks, by simp⟩
  case h_4 ks =>
    obtain ⟨-, rfl⟩ : _ ∧ _ = kind := by simpa using h
    exact ⟨ks, by simp⟩
  case h_5 =>
    obtain ⟨hword, rfl⟩ : _ ∧ _ = kind := by simpa using h
    obtain ⟨ks, rfl⟩ := atKind_iff.1 hword
    exact ⟨ks, by simp⟩
  case h_6 => cases h

/-- What starts a type declaration gives it one of the kinds of type declarations. -/
lemma isTypeDecl_of_typeDeclKind? {kind : NodeKind} (h : typeDeclKind? ks = some kind) :
    kind.isTypeDecl = true := by
  obtain ⟨ks', ⟨rfl, -⟩ | ⟨rfl, -⟩ | ⟨rfl, -⟩ | ⟨rfl, -⟩ | ⟨rfl, -⟩⟩ := exists_of_typeDeclKind? h <;> rfl

end Words

/-! ## Rules that match on the words to come

What holds of such a rule because it holds of all that the rule may choose is proved with the lemmas
here, whatever the property is. -/

section Choice

variable {P : Part → Prop}

/-- What runs to a closing brace has the property if the part before the brace has. -/
lemma untilBrace_of_closed (hP : ClosedUnderChoice P) (hempty : P empty) {part : Part}
    (hpart : P part) : P (untilBrace part) := by
  refine hP.look _ fun ks => ?_
  split
  · exact hP.fail _
  · exact hempty
  · exact hpart

/-- A directive of a module is a word, and perhaps the rest of the directive. -/
lemma form_directive_of_closed (hP : ClosedUnderChoice P) (htake : P take)
    (hrest : P (take ++ call directive)) : P (form directive) := by
  refine hP.look _ fun ks => ?_
  split
  · exact hP.fail _
  · exact hP.fail _
  · exact hP.fail _
  · exact htake
  · exact hrest

/-- A type declaration has the property if those of all kinds have. -/
lemma form_typeDecl_of_closed (hP : ClosedUnderChoice P)
    (hdecl : ∀ kind : NodeKind, kind.isTypeDecl = true → P (typeDeclOf kind)) :
    P (form typeDecl) := by
  refine hP.look _ fun ks => ?_
  split
  · rename_i hkind
    exact hdecl _ (isTypeDecl_of_typeDeclKind? hkind)
  · exact hP.fail _

/-- What is left of an expression is nothing, or one step and what is left after it. -/
lemma form_exprTail_of_closed (hP : ClosedUnderChoice P) (hempty : P empty) {stops : Stops}
    {ternaries : Nat} {previous : Option Kind}
    (hstep : ∀ k ks, P (exprStep stops previous (k :: ks) ++
      call (exprTail stops (ternariesAfter ternaries k) (some k)))) :
    P (form (exprTail stops ternaries previous)) := by
  refine hP.look _ fun ks => ?_
  cases ks with
  | nil => exact hempty
  | cons k ks =>
    dsimp only
    split
    · exact hempty
    · exact hstep k ks

end Choice

/-! ## Where rules move, and how many of them in a row do not -/

/-- Where a rule is known to use up a word. -/
def Moves : Rule → List Kind → Prop
  | modifierTail, ks => atModifier ks = true
  | exprTail stops ternaries _, ks => endsExpr stops ternaries ks = false
  | items, _ | nameTail, _ | directives, _ | annotations, _ | heritage, _ | bounds, _
  | typeTail, _ | dims, _ | enumConstants, _ | members, _ | blockStatements, _ | resources, _
  | catches, _ | exceptionTypes, _ | switchItems, _ | creatorDims, _ | elements, _ => False
  | _, _ => True

/-- The length of the longest chain of rules that a rule may call before a word is used up. -/
def rank : Rule → Nat
  | annotations | typeTail | exprTail .. | modifierTail | directives => 1
  | type | typeParamList | expr _ => 2
  | items | typeArgList | typeList | enumConstants | member | param | resources | switchCases
  | exprList | elements | statement => 3
  | members | params | lambdaParamList | blockStatement => 4
  | blockStatements | switchItems => 5
  | _ => 0

/-- Chains of rules are shorter than this before a word is used up. -/
lemma rank_lt (rule : Rule) : rule.rank < 16 := by
  cases rule <;> simp [rank]

/-! ## Every rule moves where it is said to

The parts of rules are unfolded here and in the next two sections, and nowhere else. -/

attribute [local simp] Moves rank MovesAt CallsBelow NodesMoveAt expectWord expectName semicolon
  braces parens unlessAt more qualifiedName declaredName modifiers arguments parenExpr brackets
  formalParams throwsClause typeCore packageDecl importDecl moduleDecl enumConstant
  constructorDecl methodDecl fieldDecl declaredMember paramName localVar resource catchClause
  tryStatement forHeader ruleBody switchLabel lambdaParams cast creatorBody

/-- A type declaration starts with a word. -/
lemma typeDeclOf_movesAt (kind : NodeKind) (ks : List Kind) :
    (typeDeclOf kind).MovesAt Moves ks := by
  simp [typeDeclOf]

/-- Every statement uses up a word. -/
lemma statementBody_movesAt (ks ks' : List Kind) : (statementBody ks).MovesAt Moves ks' := by
  unfold statementBody
  split <;> simp

/-- Every step of an expression uses up a word. -/
lemma exprStep_movesAt (stops : Stops) (previous : Option Kind) (ks ks' : List Kind) :
    (exprStep stops previous ks).MovesAt Moves ks' := by
  unfold exprStep
  split <;> simp

/-- A choice uses up a word if all that may be chosen does. -/
lemma closedUnderChoice_movesAt (ks : List Kind) :
    ClosedUnderChoice fun part : Part => part.MovesAt Moves ks :=
  ⟨fun _ => trivial, fun _ h => h ks⟩

/-- Every rule uses up a word where it is said to. -/
theorem form_movesAt (rule : Rule) (ks : List Kind) (h : rule.Moves ks) :
    rule.form.MovesAt Moves ks := by
  have hclosed := closedUnderChoice_movesAt ks
  cases rule with
  | directive => exact form_directive_of_closed hclosed (by simp) (by simp)
  | typeDecl => exact form_typeDecl_of_closed hclosed fun kind _ => typeDeclOf_movesAt kind ks
  | statement => simp [form, statementBody_movesAt]
  | exprTail stops ternaries previous =>
    have hends : endsExpr stops ternaries ks = false := h
    cases ks with
    | nil => simp [endsExpr] at hends
    | cons k ks => simp [form, hends, exprStep_movesAt]
  | _ => simp_all [form]

/-! ## Every rule calls only rules of lower rank before it moves -/

/-- A type declaration calls no rule before its first word. -/
lemma typeDeclOf_callsBelow (kind : NodeKind) (ks : List Kind) :
    (typeDeclOf kind).CallsBelow Moves rank 0 ks := by
  simp [typeDeclOf]

/-- A statement calls at most an expression before its first word. -/
lemma statementBody_callsBelow (ks ks' : List Kind) :
    (statementBody ks).CallsBelow Moves rank 3 ks' := by
  unfold statementBody
  split <;> simp

/-- A step of an expression calls at most rules that start with a word. -/
lemma exprStep_callsBelow (stops : Stops) (previous : Option Kind) (ks ks' : List Kind) :
    (exprStep stops previous ks).CallsBelow Moves rank 1 ks' := by
  unfold exprStep
  split <;> simp

/-- A choice calls the rules that are called by what may be chosen. -/
lemma closedUnderChoice_callsBelow (n : Nat) (ks : List Kind) :
    ClosedUnderChoice fun part : Part => part.CallsBelow Moves rank n ks :=
  ⟨fun _ => trivial, fun _ h => h ks⟩

/-- Every rule calls only rules of lower rank before it has used up a word. -/
theorem form_callsBelow (rule : Rule) (ks : List Kind) :
    rule.form.CallsBelow Moves rank (rank rule) ks := by
  have hclosed := closedUnderChoice_callsBelow rule.rank ks
  cases rule with
  | directive => exact form_directive_of_closed hclosed trivial (by simp)
  | typeDecl => exact form_typeDecl_of_closed hclosed fun kind _ => typeDeclOf_callsBelow kind ks
  | members | blockStatements | switchItems | elements =>
    exact untilBrace_of_closed hclosed trivial (by simp)
  | statement => simp [form, statementBody_callsBelow]
  | exprTail stops ternaries previous =>
    refine form_exprTail_of_closed hclosed trivial fun k ks' => ?_
    simp [exprStep_callsBelow, exprStep_movesAt]
  | _ => simp [form]

/-! ## Every node has a word in it -/

/-- The nodes of a type declaration have words in them. -/
lemma typeDeclOf_nodesMoveAt (kind : NodeKind) (ks : List Kind) :
    (typeDeclOf kind).NodesMoveAt Moves ks := by
  simp [typeDeclOf]

/-- The nodes of a statement have words in them. -/
lemma statementBody_nodesMoveAt (ks ks' : List Kind) :
    (statementBody ks).NodesMoveAt Moves ks' := by
  unfold statementBody
  split <;> simp

/-- The nodes of a step of an expression have words in them. -/
lemma exprStep_nodesMoveAt (stops : Stops) (previous : Option Kind) (ks ks' : List Kind) :
    (exprStep stops previous ks).NodesMoveAt Moves ks' := by
  unfold exprStep
  split <;> simp

/-- The nodes of a choice are those of what may be chosen. -/
lemma closedUnderChoice_nodesMoveAt (ks : List Kind) :
    ClosedUnderChoice fun part : Part => part.NodesMoveAt Moves ks :=
  ⟨fun _ => trivial, fun _ h => h ks⟩

/-- Every node of every rule has a word in it. -/
theorem form_nodesMoveAt (rule : Rule) (ks : List Kind) :
    rule.form.NodesMoveAt Moves ks := by
  have hclosed := closedUnderChoice_nodesMoveAt ks
  cases rule with
  | directive => exact form_directive_of_closed hclosed trivial (by simp)
  | typeDecl => exact form_typeDecl_of_closed hclosed fun kind _ => typeDeclOf_nodesMoveAt kind ks
  | members | blockStatements | switchItems | elements =>
    exact untilBrace_of_closed hclosed trivial (by simp)
  | statement => simp [form, statementBody_movesAt, statementBody_nodesMoveAt]
  | exprTail stops ternaries previous =>
    refine form_exprTail_of_closed hclosed trivial fun k ks' => ?_
    simp [exprStep_nodesMoveAt]
  | _ => simp_all [form]

/-! ## Whole files -/

/-- The rule for a file reads all words, since it ends only where no word is left. -/
lemma items_reads_all {fuel room : Nat} {ks ks' : List Kind} {f : Shape}
    (hread : readRule form fuel items room ks = .ok (f, ks')) : ks' = [] := by
  induction fuel generalizing room ks ks' f with
  | zero => simp [readRule] at hread
  | succ fuel ih =>
    simp only [readRule, form, Form.read] at hread
    split at hread
    · rename_i hempty
      obtain ⟨-, rfl⟩ : Forest.nil = f ∧ ks = ks' := by simpa [Form.read] using hread
      simpa using hempty
    · -- In the three other cases the rule calls itself at its end.
      have hend : ∃ part, (part ++ call items).read (readRule form fuel) room ks = .ok (f, ks') := by
        split at hread
        · exact ⟨_, hread⟩
        · split at hread
          · exact ⟨_, hread⟩
          · exact ⟨_, hread⟩
      obtain ⟨part, hpart⟩ := hend
      obtain ⟨g, ks₁, h, -, hrest, -⟩ := read_seq_eq_ok.1 hpart
      exact ih hrest

end Rule

/-- A shape comes from following the rule for files. -/
lemma readShape_eq_ok {ks : List Kind} {shape : Shape} :
    readShape ks = .ok shape ↔
      ∃ ks', readRule Rule.form (fuelFor ks.length) .items maxNesting ks = .ok (shape, ks') := by
  unfold readShape
  cases readRule Rule.form (fuelFor ks.length) .items maxNesting ks with
  | error stop => simp [Except.map]
  | ok result =>
    obtain ⟨f, ks'⟩ := result
    simp [Except.map]

/-- The leaves of the shape of a file are its words, all of them and in order. -/
theorem readShape_leaves {ks : List Kind} {shape : Shape} (h : readShape ks = .ok shape) :
    shape.leaves = ks := by
  obtain ⟨ks', hread⟩ := readShape_eq_ok.1 h
  have hleaves := readRule_lossless Rule.form _ _ _ _ _ _ hread
  rwa [Rule.items_reads_all hread, List.append_nil] at hleaves

/-- A file that is refused is refused at one of its words or at its end. -/
theorem readShape_stopsInside {ks : List Kind} {stop : Stop} (h : readShape ks = .error stop) :
    stop.left ≤ ks.length := by
  unfold readShape at h
  cases hread : readRule Rule.form (fuelFor ks.length) .items maxNesting ks with
  | error stop' =>
    obtain rfl : stop' = stop := by simpa [hread, Except.map] using h
    exact readRule_stopsInside Rule.form _ _ _ _ _ hread
  | ok result => simp [hread, Except.map] at h

/-- No node of the shape of a file is empty. -/
theorem readShape_nodesFull {ks : List Kind} {shape : Shape} (h : readShape ks = .ok shape) :
    shape.NodesFull := by
  obtain ⟨ks', hread⟩ := readShape_eq_ok.1 h
  exact readRule_nodesFull Rule.form_movesAt Rule.form_nodesMoveAt _ _ _ _ hread

/-- The grammar has fuel for every file. -/
theorem readShape_finishes (ks : List Kind) (left : Nat) :
    readShape ks ≠ .error ⟨.unfinished, left⟩ := by
  have hfuel : 16 * ks.length + Rule.rank .items < fuelFor ks.length := by
    simp only [Rule.rank, fuelFor]
    omega
  have hfinish := readRule_finishes Rule.rank_lt Rule.form_movesAt Rule.form_callsBelow _
    .items maxNesting ks hfuel left
  intro hread
  apply hfinish
  unfold readShape at hread
  cases hrule : readRule Rule.form (fuelFor ks.length) .items maxNesting ks with
  | error stop => simpa [hrule, Except.map] using hread
  | ok result => simp [hrule, Except.map] at hread

end JavaLint
